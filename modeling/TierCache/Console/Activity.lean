import TierCache.Console.Fields
import TierCache.Json.Decode
import TierCache.Warming.Predictor
import TierCache.Warming.Source
/-!
# Console requests on access patterns

A tracker of access patterns and a predictor over it, driven by a list of steps: record
accesses and preferences, prune, look up, refresh from a list of recently active users, train
and predict. Times are RFC 3339 text; a step that names none uses the reference instant
2024-03-04T12:00:00Z, a Monday noon.
-/

namespace TierCache

namespace Console

open Json

/-- The instant steps use when they name none. -/
def referenceInstant : Instant := ⟨(Instant.daysFromCivil 2024 3 4 * 86400 + 43200) * Instant.nanosPerSecond⟩

/-- The instant in member `k`, or the reference instant when there is none. -/
def instantAt (j : Json) (k : String) : Except String Instant :=
  match j.get? k with
  | none => .ok referenceInstant
  | some v => match toInstant v with
    | .ok t => .ok t
    | .error m => .error ("bad " ++ k ++ ": " ++ m.message)

/-- An access pattern as a report shows it. -/
def patternJson (p : AccessPattern) : Json :=
  Json.ofMembers [("user_id", .str p.userId), ("accesses", .arr (p.accesses.map fun t => .str t.render)),
    ("accessed_keys", .arr (p.keys.map .str)), ("peak_hours", .arr (p.peakHours.map Json.ofNat)),
    ("preferences", .arr (p.preferences.map .str))]

/-- A point of feature space as a list of four doubles. -/
def featuresJson (p : Features) : Json := .arr (p.toList.map Json.ofFloat)

/-- A trained model. -/
def modelJson (m : PredictorModel) : Json :=
  Json.ofMembers [("means", featuresJson m.means), ("stds", featuresJson m.stds),
    ("centroids", .arr (m.centroids.toList.map featuresJson)),
    ("cluster_sizes", .arr (m.clusterSizes.toList.map Json.ofNat)),
    ("active_cluster", Json.ofNat m.activeCluster), ("samples", Json.ofNat m.samples),
    ("users", Json.ofNat m.users), ("trained_at", .str m.trainedAt.render)]

/-- An activity record: the user and the time are required, the preferences default to none. -/
def activityOfJson (j : Json) : Except Mismatch Activity := do
  let ms ← members "UserActivity" j
  let bad := memberFault ms fun k v => match k with
    | "user_id" => faultOf (toStr v)
    | "last_active" => faultOf (toInstant v)
    | "preferences" => faultOf (toList toStr v)
    | _ => none
  if let some m := bad then throw m
  let userId ← readReq ms "user_id" toStr
  let lastActive ← readReq ms "last_active" toInstant
  let preferences ← readOr ms "preferences" (toList toStr) []
  return { userId, lastActive, preferences }

/-- A tracker with its predictor. -/
structure ActivityState where
  tracker : AccessTracker
  predictor : Predictor

/-- A step whose input could not be read. -/
def unreadable (s : ActivityState) (msg : String) : Except String (Json × ActivityState) :=
  .ok (badInput msg, s)

/-- One step on the tracker and predictor; a time computation out of range halts the request. -/
def activityStep (s : ActivityState) (j : Json) : Except String (Json × ActivityState) :=
  let user := (str? j "user").getD ""
  let t := s.tracker
  match str? j "do" with
  | some "record" => match instantAt j "at" with
    | .error msg => unreadable s msg
    | .ok time => .ok (.null, { s with tracker := t.recordAccess user time (str? j "key") })
  | some "prefs" => .ok (.null, { s with tracker := t.setPreferences user ((strings? j "prefs").getD []) })
  | some "prune" => match instantAt j "now" with
    | .error msg => unreadable s msg
    | .ok now => match t.prune now with
      | .ok (n, t) => .ok (Json.ofNat n, { s with tracker := t })
      | .error e => .error e.message
  | some "get" => .ok ((t.get? user).elim .null patternJson, s)
  | some "snapshot" => .ok (.arr (t.snapshot.map patternJson), s)
  | some "len" => .ok (Json.ofNat t.size, s)
  | some "is_empty" => .ok (.bool (t.size == 0), s)
  | some "last_access" => .ok (((t.get? user).bind (·.lastAccess)).elim .null (fun a => .str a.render), s)
  | some "refresh" =>
    match instantAt j "now", (readOr (match j with | .obj ms => ms | _ => []) "users" (toList activityOfJson) []) with
    | .error msg, _ => unreadable s msg
    | _, .error m => unreadable s ("bad users: " ++ m.message)
    | .ok now, .ok users =>
      if (bool? j "failing").getD false then
        match now.back AccessTracker.lookbackSecs with
        | .error e => .error e.message
        | .ok _ => .ok (failWith (.dataSource sourceFailure), s)
      else match t.refresh users now with
        | .ok (n, t) => .ok (Json.ofNat n, { s with tracker := t })
        | .error e => .error e.message
  | some "train" => match instantAt j "now" with
    | .error msg => unreadable s msg
    | .ok now => match s.predictor.train t now with
      | .ok (m, p) => .ok (modelJson m, { s with predictor := p })
      | .error f => .ok (failWith (.training f.message), s)
  | some "predict" => match instantAt j "now" with
    | .error msg => unreadable s msg
    | .ok now => .ok (.arr ((s.predictor.predict t now).map .str), s)
  | some "model" => .ok (s.predictor.model.elim .null modelJson, s)
  | some "is_trained" => .ok (.bool s.predictor.model.isSome, s)
  | _ => unreadable s "unknown patterns step"

/-- Runs a list of steps on a fresh tracker and predictor. -/
def patternsRequest (req : Json) : Json :=
  match AccessTracker.create ((nat? req "history_len").getD 100) ((int? req "retention_days").getD 30) with
  | .error e => halted e.message
  | .ok tracker =>
    let predictor := Predictor.create ((nat? req "clusters").getD 3) ((nat? req "min_training_users").getD 10)
      ((nat? req "max_predicted").getD 100)
    match runHalting activityStep { tracker, predictor } ((list? req "ops").getD []) with
    | .ok answers => ok (.arr answers)
    | .error msg => halted msg

end Console

end TierCache
