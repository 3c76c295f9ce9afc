import TierCache.Service.Access
import TierCache.Tasks.Buffered
/-!
# Warming the cache

A dispatch claims a rule's pattern, checks the gates, takes a permit and starts a job that runs
the rule; a pattern already claimed, a closed gate or a lack of permits each stop the dispatch
and give the claim back. A tick dispatches every rule in rule order; a written key dispatches the
rules whose pattern matches it, unless it is a marker.

A job runs its rule. On success it writes the marker with the dispatch's instant, then records
the run with its items and its duration on the clock; on failure it records a failed run; a rule
that panics records nothing. The claim and the permit go back when the job ends.

An analysis pass refreshes the access patterns from the source, prunes them, trains the
predictor, and warms every user it predicts to be active.
-/

namespace TierCache

/-- How a rule's run ended. -/
inductive RunOutcome where
  /-- The rule warmed `items` items. -/
  | warmed (items : Nat)
  /-- The rule failed. -/
  | failed (e : CacheError)
  /-- The rule panicked: its job died. -/
  | died

/-- What one analysis pass did. -/
structure AnalysisOutcome where
  usersSeen : Nat := 0
  usersPruned : Nat := 0
  trained : Bool := false
  predicted : Nat := 0
  warmed : Nat := 0

namespace Act

/-- The instant in a serialized date-time text. -/
def instantOfBytes (v : ByteArray) : Option Instant :=
  match Shape.datetime.read v with
  | .ok (.str s) => (TimeText.parse s).toOption
  | _ => none

/-- When a pattern last finished warming: its marker, read for bookkeeping. -/
def lastWarmed (pattern : String) : Act (Option Instant) := do
  return (← peekRaw (markerKey pattern)).bind instantOfBytes

/-- Records that a pattern finished warming at `time`: its marker is written cache-aside with
the marker's time to live. -/
def markWarmed (pattern : String) (time : Instant) : Act Unit := do
  let ttl ← look fun h => (h.warmer.map (·.registry.markerTtlMs)).getD 0
  let _ ← setJson (markerKey pattern) (.str time.render) (some ttl) .cacheAside

/-- Counts a query of the data source, which fails when the source is set to fail. -/
def query : Act (Except CacheError Unit) :=
  onSource fun s =>
    let s := { s with queries := s.queries + 1 }
    (if s.failing then .error (.dataSource sourceFailure) else .ok (), s)

/-- Evaluates a condition against the source at `now`; a calendar overflow stops everything. -/
def evaluate (c : Condition) (now : Instant) : Act (Except String Bool) := do
  match ← look fun h => c.evaluate h.source now with
  | .error e => halt e.message
  | .ok (r, src) =>
    Fiber.modify fun h => { h with source := src }
    return r

/-- The first gate a rule fails at `now`, or `eligible`. -/
def eligibility (r : Rule) (now : Instant) : Act Eligibility := do
  if let some last ← lastWarmed r.pattern then
    if tooRecent last now r.frequencySecs then return .tooSoon last
  for c in r.conditions do
    match ← evaluate c now with
    | .ok true => pure ()
    | _ => return .conditionUnmet c
  for d in r.dependencies do
    if (← lastWarmed d).isNone then return .dependencyUnmet d
  return .eligible

/-- Claims a pattern; false when it is already claimed. -/
def claim (pattern : String) : Act Bool :=
  Fiber.modifyGet fun h =>
    match h.warmer with
    | some w => if w.claimed pattern then (false, h)
      else (true, { h with warmer := some { w with inFlight := pattern :: w.inFlight } })
    | none => (false, h)

/-- Takes a permit for a claimed pattern and numbers its job; with no permit free, the claim goes
back and the rule counts as skipped busy. -/
def takePermit (pattern : String) : Act (Option Nat) :=
  Fiber.modifyGet fun h =>
    match h.warmer with
    | none => (none, h)
    | some w =>
      if w.permits == 0 then
        (none, { h with warmer := some ((w.count fun c => { c with skippedBusy := c.skippedBusy + 1 }).release pattern) })
      else
        let id := w.nextJob
        (some id, { h with warmer := some { w with permits := w.permits - 1, nextJob := id + 1,
                                                   running := w.running ++ [id], undrained := w.undrained ++ [id],
                                                   counters := { w.counters with active := w.counters.active + 1 } } })

/-- Dispatches a rule at `now`, for a written key if `trigger` is one; whether a job started. -/
def dispatch (r : Rule) (now : Instant) (trigger : Option String) : Act Bool := do
  if !(← claim r.pattern) then return false
  match ← eligibility r now with
  | .eligible =>
    match ← takePermit r.pattern with
    | some id =>
      spawn (.warm id r now trigger)
      return true
    | none => return false
  | _ =>
    changeWarmer (·.release r.pattern)
    return false

/-- Dispatches each rule in turn; the patterns whose job started. -/
def dispatchAll (rules : List Rule) (now : Instant) (trigger : Option String) : Act (List String) := do
  let mut started := []
  for r in rules do
    if ← dispatch r now trigger then started := started ++ [r.pattern]
  return started

/-- Dispatches every rule at `now`, in rule order. -/
def tick (now : Instant) : Act (List String) := do
  dispatchAll (← look fun h => (h.warmer.map (·.registry.ordered)).getD []) now none

/-- Dispatches the rules matching a written key; a marker triggers nothing and is not counted. -/
def handleTrigger (key : String) (now : Instant) : Act (List String) := do
  if markerPrefix.isPrefixOf key then return []
  changeWarmer (·.count fun c => { c with triggers := c.triggers + 1 })
  dispatchAll (← look fun h => (h.warmer.map (·.registry.matching key)).getD []) now (some key)

/-- A record as its JSON text writes it: id, title, body. -/
def recordJson (r : RecordSummary) : Json :=
  .obj [("id", .str r.id), ("title", .str r.title), ("body", .str r.body)]

/-- The time to live of a user's warmed keys: one hour. -/
def userTtlMs : Nat := 3600000

/-- Warms one user: the profile, the applications and the recommendations, each written
cache-aside for an hour. Answers the number of keys written, or the source's refusal. -/
def warmUser (user : String) : Act (Except CacheError Nat) := do
  match ← query with
  | .error e => return .error e
  | .ok () =>
    match ← look fun h => h.source.userSnapshot user with
    | .error msg => return .error (.dataSource msg)
    | .ok snap =>
      let key (part : String) := "user:" ++ user ++ ":" ++ part
      let _ ← setJson (key "profile") snap.profile (some userTtlMs) .cacheAside
      let _ ← setJson (key "applications") (.arr snap.applications) (some userTtlMs) .cacheAside
      let _ ← setJson (key "recommendations") (.arr (snap.recommendations.map .str)) (some userTtlMs) .cacheAside
      return .ok 3

/-- How many users of the active list are warmed at once. -/
def profileConcurrency : Nat := 8

/-- Warms one user of the active list: the keys written, none when the source refuses. -/
def warmListedUser (user : String) : Act Nat := do
  match ← warmUser user with
  | .ok n => return n
  | .error _ => return 0

/-- The users active within the hour before `now`, most recent first; `none` when the calendar
cannot look back that far. -/
def activeUsers (now : Instant) : Act (Option (Except CacheError (List Activity))) := do
  match now.back AccessTracker.lookbackSecs with
  | .error _ => return none
  | .ok since =>
    match ← query with
    | .error e => return some (.error e)
    | .ok () => return some (.ok (← look fun h => h.source.recentlyActive since))

/-- Runs a scripted rule: counts the call; unless it panics, sleeps, writes each key with the
dispatch's instant and trigger, and fails or reports its items. -/
def runScript (r : Rule) (s : Script) (now : Instant) (trigger : Option String) : Act RunOutcome := do
  changeWarmer (·.countCall r.pattern)
  if s.panic.isSome then return .died
  sleep s.sleepMs
  let value := Json.ofMembers [("now", .str now.render), ("trigger", Json.ofOption trigger)]
  for k in s.setKeys do
    let _ ← setJson k value none .cacheAside
  match s.fail with
  | some msg => return .failed (.dataSource msg)
  | none => return .warmed s.items

/-- Runs a rule for a dispatch at `now`. -/
def runRule (r : Rule) (now : Instant) (trigger : Option String) : Act RunOutcome := do
  match r.refresh with
  | .scripted s => runScript r s now trigger
  | .activeUsers =>
    match ← activeUsers now with
    | none => return .died
    | some (.error e) => return .failed e
    | some (.ok users) =>
      let _ ← setJson activeUsersKey (.arr (users.map fun u => .str u.userId)) (some 900000) .cacheAside
      return .warmed 1
  | .recentRecords =>
    match ← query with
    | .error e => return .failed e
    | .ok () =>
      let records ← look fun h => h.source.recentRecords 100
      for rec in records do
        let _ ← setJson ("record:" ++ rec.id) (recordJson rec) (some 1800000) .cacheAside
      return .warmed records.length
  | .activeProfiles =>
    let cached ← getRaw activeUsersKey
    let listed ← match cached with
      | none => pure none
      | some v =>
        match Shape.strings.read v with
        | .ok (.arr xs) => pure (some (xs.filterMap fun
            | .str s => some s
            | _ => none))
        | _ =>
          changeCache fun _ c => c.count Metrics.error
          pure none
    let users ← match listed with
      | some us => pure (some (.ok us))
      | none => do
        match ← activeUsers now with
        | none => pure none
        | some r => pure (some (r.map fun us => us.map (·.userId)))
    match users with
    | none => return .died
    | some (.error e) => return .failed e
    | some (.ok us) =>
      return .warmed (← Fiber.buffered profileConcurrency warmListedUser (· + ·) (·.clock) us 0)

/-- A rule's job: runs the rule, writes the marker and records the run, then gives back the
claim and the permit. -/
def warmJob (id : Nat) (r : Rule) (now : Instant) (trigger : Option String) : Act Unit := do
  let started ← Act.now
  match ← runRule r now trigger with
  | .warmed items =>
    markWarmed r.pattern now
    let t ← Act.now
    changeWarmer (·.count (·.recordRun (some items) ((t - started) * 1000)))
  | .failed _ =>
    let t ← Act.now
    changeWarmer (·.count (·.recordRun none ((t - started) * 1000)))
  | .died => pure ()
  changeWarmer (·.finish id r.pattern)

/-- Waits until every job dispatched since the last drain has ended. -/
def drain : Act Unit := do
  let jobs ← Fiber.modifyGet fun h =>
    match h.warmer with
    | some w => (w.undrained, { h with warmer := some { w with undrained := [] } })
    | none => ([], h)
  Fiber.waitUntil fun h => match h.warmer with
    | some w => jobs.all fun j => !w.running.contains j
    | none => true

/-- One analysis pass at `now`; a calendar overflow stops everything. -/
def analyze (now : Instant) : Act AnalysisOutcome := do
  changeWarmer (·.count fun c => { c with analysisPasses := c.analysisPasses + 1 })
  if (now.back AccessTracker.lookbackSecs).toOption.isNone then
    halt (TimeOverflow.subtractOverflow.message)
  let seen ← match ← query with
    | .error _ => pure 0
    | .ok () =>
      Fiber.modifyGet fun h =>
        match h.warmer with
        | none => (0, h)
        | some w =>
          match w.tracker.refresh h.source.users now with
          | .ok (n, t) => (n, { h with warmer := some { w with tracker := t } })
          | .error _ => (0, h)
  let pruning : Option (Except TimeOverflow (Nat × AccessTracker)) ←
    look fun h => h.warmer.map fun w => w.tracker.prune now
  let pruned ← match pruning with
    | some (.error e) => halt e.message
    | some (.ok (n, t)) =>
      changeWarmer fun w => { w with tracker := t }
      pure n
    | none => pure 0
  let trained ← Fiber.modifyGet fun h =>
    match h.warmer with
    | none => (false, h)
    | some w =>
      match w.predictor.train w.tracker now with
      | .ok (_, p) => (true, { h with warmer := some { w with predictor := p } })
      | .error _ => (false, h)
  let predicted ← look fun h => (h.warmer.map fun w => w.predictor.predict w.tracker now).getD []
  let mut warmed := 0
  for u in predicted do
    if (← warmUser u).toBool then warmed := warmed + 1
  changeWarmer (·.count fun c => { c with predictedUsersWarmed := c.predictedUsersWarmed + warmed })
  return { usersSeen := seen, usersPruned := pruned, trained, predicted := predicted.length, warmed }

end Act

end TierCache
