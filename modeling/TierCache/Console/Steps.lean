import TierCache.Console.Session
/-!
# The steps of a console session

Each step names what it does in `do`. A step is read first; one that lacks what it needs (a
backend, a scheduler, a service, a subscription, a readable trigger queue, a field it cannot read)
answers `BadInput` at once. Otherwise it becomes a main flow over the host, which the session
drives to its end.
-/

namespace TierCache

namespace Console

/-- A step: either its answer at once, or the main flow that computes it. -/
abbrev Plan := Except Json (Act Json)

/-- Refuses a step with a reason. -/
def refuse (msg : String) : Plan := .error (badInput msg)

/-- The JSON of a list of strings. -/
def strs (xs : List String) : Json := .arr (xs.map .str)

/-- The steps on the cache itself. -/
def cacheStep (s : Session) (j : Json) : String → Option Plan
  | "set" => some <| match WriteStrategy.parse ((str? j "strategy").getD "cache_aside") with
    | .error e => .ok (pure (stepAnswer (.error e)))
    | .ok strategy =>
      let serialized : Except CacheError ByteArray :=
        if (bool? j "unserializable").getD false then .error (.serialization "key must be a string")
        else match j.get? "value", bytes? j "raw" with
          | some v, _ => .ok v.render.toUTF8
          | none, some raw => .ok raw
          | none, none => .ok Json.null.render.toUTF8
      .ok do return .bool (← Act.set key serialized (nat? j "ttl_ms") strategy)
  | "get" => some <|
    let as := (str? j "as").getD "value"
    if as == "raw" then .ok do return hexOrNull (← Act.getRaw key)
    else match shapeNamed as with
      | none => refuse ("unknown shape " ++ as)
      | some sh => .ok do return (← Act.get sh key).getD .null
  | "get_or" => some <| .ok (Act.getOr Shape.i64 key (Json.ofInt ((int? j "default").getD 0)))
  | "exists" => some <| .ok do return .bool (← Act.contains key)
  | "delete" => some <| .ok do return .bool (← Act.delete key)
  | "invalidate" => some <| .ok do return Json.ofNat (← Act.invalidate ((str? j "pattern").getD ""))
  | "sweep" => some <| .ok do return Json.ofNat (← Act.sweep)
  | "clear_local" => some <| .ok do
    Act.clearLocal
    return .null
  | "memory_keys" => some <| .ok (Act.look fun h => strs (sortStrings h.cache.memory.keys))
  | "memory_len" => some <| .ok (Act.look fun h => Json.ofNat h.cache.memory.size)
  | "memory_usage" => some <| .ok (Act.look fun h => Json.ofNat h.cache.memory.bytes)
  | "peek" => some <| .ok (Act.look fun h => ((h.cache.memory.peek key h.clock).map (itemJson · h.clock)).getD .null)
  | "pending" => some <| .ok (Act.look fun h => Json.ofNat h.cache.writeBehind.pending)
  | "flush" => some <| .ok do
    Act.flush
    Act.look fun h => Json.ofNat h.cache.writeBehind.pending
  | "metrics" => some <| .ok (Act.look fun h =>
      match metricsJson h.cache.metrics with
      | .obj ms => if h.stamped then .obj (ms.filter (·.1 != "memory_bytes")) else .obj ms
      | other => other)
  | "circuit" => some <| .ok (Act.look fun h =>
      (h.cache.distributed.map fun d => breakerJson (d.breaker.snapshot h.clock)).getD .null)
  | "ping" => some <| .ok do return ((← Act.ping).map Json.bool).getD .null
  | "info" => some <| .ok (Act.look fun h =>
      Json.ofMembers [("memory_only", .bool h.cache.memoryOnly), ("backend", Json.ofOption h.cache.backendName),
        ("default_ttl_ms", Json.ofNat h.cache.defaultTtlMs), ("capacity", Json.ofNat h.cache.memory.capacity)])
  | "health" => some <| .ok (Act.look fun h =>
      .arr [checkJson (h.cache.distributedCheck h.clock), checkJson h.cache.memoryCheck])
  | "health_report" => some <| .ok do
    if !s.serviceMode then
      Fiber.modify fun h => { h with live := (bool? j "live").getD h.live, ready := (bool? j "ready").getD h.ready }
    Act.look fun h =>
      let liveness := HealthCheck.ofFlag "liveness" h.live "Service not live"
      if (bool? j "liveness_only").getD false then reportJson [liveness]
      else reportJson [liveness, HealthCheck.ofFlag "readiness" h.ready "Service not ready",
        h.cache.distributedCheck h.clock, h.cache.memoryCheck]
  | "events" => some <|
    if !s.subscribed then refuse "session has no event subscription"
    else .ok do
      let stamps := (bool? j "timestamps").getD false
      Act.onCache fun _ c =>
        match c.events with
        | none => (.arr [], c)
        | some f =>
          let (missed, events, f) := f.take
          let lag := match missed with
            | some n => [Json.ofMembers [("lagged", Json.ofNat n)]]
            | none => []
          (.arr (lag ++ events.map (eventJson stamps)), { c with events := some f })
  | "triggers" => some <|
    if !s.readsTriggers then refuse "session has no trigger queue"
    else .ok (Act.onCache fun _ c =>
      match c.triggers with
      | none => (.arr [], c)
      | some q => let (keys, q) := q.takeAll; (strs keys, { c with triggers := some q }))
  | "advance" => some <| .ok do
    Fiber.modify fun h => { h with clock := h.clock + (nat? j "ms").getD 0 }
    Fiber.giveWay
    return .null
  | "run" => some <| .ok do
    Act.sleep ((nat? j "ms").getD 0)
    return .null
  | _ => none
where
  key := (str? j "key").getD ""

/-- The steps on the in-process backend. -/
def backendStep (s : Session) (j : Json) (name : String) : Option Plan :=
  let key := (str? j "key").getD ""
  let direct (call : BackendCall) (answer : BackendReply → Json) : Plan :=
    .ok do return stepAnswer ((← Act.callBackend call).map answer)
  let read (f : Backend → Nat → Json) : Plan :=
    .ok (Act.look fun h => (h.cache.distributed.map fun d => f d.backend h.clock).getD .null)
  let plan : Option Plan := match name with
    | "fail" => some <| .ok do
      Act.changeTier fun d => { d with backend := { d.backend with failing := (bool? j "on").getD true } }
      return .null
    | "latency" => some <| .ok do
      Act.changeTier fun d => { d with backend := { d.backend with latency := nat? j "ms" } }
      return .null
    | "backend_raw" => some (read fun b _ => hexOrNull (b.raw key))
    | "backend_contains" => some (read fun b now => .bool (b.contains key now))
    | "backend_is_empty" => some (read fun b _ => .bool (b.size == 0))
    | "backend_len" => some (read fun b _ => Json.ofNat b.size)
    | "backend_stats" => some (read fun b _ => backendStatsJson b.stats)
    | "backend_setex" =>
      some (direct (.setex key ((bytes? j "frame").getD ByteArray.empty) ((nat? j "ttl_ms").getD 60000))
        fun _ => .null)
    | "backend_get" => some (direct (.get key) fun
        | .frame f => hexOrNull f
        | _ => .null)
    | "backend_delete_matching" => some (direct (.deleteMatching ((str? j "pattern").getD "")) fun
        | .count n => Json.ofNat n
        | _ => Json.ofNat 0)
    | _ => none
  plan.map fun p => if s.host.cache.distributed.isNone then refuse "session has no backend" else p

/-- The steps on the service's lifecycle. -/
def serviceStep (s : Session) (_j : Json) (name : String) : Option Plan :=
  let plan : Option Plan := match name with
    | "start" => some <| .ok do return stepAnswer ((← Act.start).map fun _ => .null)
    | "shutdown" => some <| .ok do
      Act.shutdown
      Act.look fun h => Json.ofMembers [("cancelled", .bool (Act.cancelled h)), ("ready", .bool h.ready),
        ("live", .bool h.live), ("pending", Json.ofNat h.cache.writeBehind.pending)]
    | "lifecycle" => some <| .ok (Act.look fun h =>
        Json.ofMembers [("cancelled", .bool (Act.cancelled h)), ("ready", .bool h.ready), ("live", .bool h.live)])
    | "service_config" => some <| .ok (Act.look fun h => ((h.service.map (·.config.toJson))).getD .null)
    | _ => none
  plan.map fun p => if s.host.service.isNone then refuse "session has no service" else p

/-- The steps on the data source, which every session has. -/
def sourceStep (j : Json) : String → Option Plan
  | "source" => some <| match sourceWith {} j with
    | .error msg => refuse msg
    | .ok _ => .ok do
      match ← Act.look fun h => sourceWith h.source j with
      | .ok src => Fiber.modify fun h => { h with source := src }
      | .error _ => pure ()
      return .null
  | "source_queries" => some <| .ok (Act.look fun h => Json.ofNat h.source.queries)
  | "condition" => some <|
    match conditionOfJson ((j.field? "condition").getD .null), instantAt j "now" with
    | .error m, _ => refuse ("bad condition: " ++ m.message)
    | _, .error msg => refuse msg
    | .ok c, .ok now => .ok do
      match ← Act.evaluate c now with
      | .ok holds => return Json.ofMembers [("holds", .bool holds), ("display", .str c.display)]
      | .error msg => return stepAnswer (.error (.dataSource msg))
  | "warm_user" => some <| .ok do
    return stepAnswer ((← Act.warmUser ((str? j "user").getD "")).map Json.ofNat)
  | _ => none

/-- The rule a step names. -/
def namedRule (j : Json) (h : Host) : Option Rule :=
  h.warmer.bind fun w => w.registry.find? ((str? j "pattern").getD "")

/-- The steps on the warming scheduler. -/
def warmingStep (s : Session) (j : Json) (name : String) : Option Plan :=
  let pattern := (str? j "pattern").getD ""
  let withNow (f : Instant → Act Json) : Plan :=
    match instantAt j "now" with
    | .error msg => refuse msg
    | .ok now => .ok (f now)
  let plan : Option Plan := match name with
    | "register" => some <| match ruleOfJson ((j.field? "rule").getD .null) with
      | .error msg => refuse msg
      | .ok r => .ok (Fiber.modifyGet fun h =>
        match h.warmer with
        | none => (.null, h)
        | some w => match w.registry.register r with
          | .ok g => (.null, { h with warmer := some { w with registry := g } })
          | .error e => (stepAnswer (.error e), h))
    | "register_standard" => some <| .ok (Fiber.modifyGet fun h =>
        match h.warmer with
        | none => (.null, h)
        | some w =>
          let (g, err) := standardRules.foldl (fun (g, err) r =>
            match err with
            | some e => (g, some e)
            | none => match g.register r with
              | .ok g => (g, none)
              | .error e => (g, some e)) (w.registry, none)
          ((err.map fun e => stepAnswer (.error e)).getD .null, { h with warmer := some { w with registry := g } }))
    | "rules" => some <| .ok (Act.look fun h =>
        .arr (((h.warmer.map (·.registry.ordered)).getD []).map ruleJson))
    | "matching" => some <| .ok (Act.look fun h =>
        strs (((h.warmer.map (·.registry.matching ((str? j "key").getD ""))).getD []).map (·.pattern)))
    | "tick" => some (withNow fun now => do return strs (← Act.tick now))
    | "trigger" => some (withNow fun now => do return strs (← Act.handleTrigger ((str? j "key").getD "") now))
    | "pump" => some (withNow fun now => do
        let handled ← Fiber.loop (fun (acc : Array Json) => do
          let key ← Act.onCache fun _ c =>
            match c.triggers.bind (·.pop?) with
            | some (k, q) => (some k, { c with triggers := some q })
            | none => (none, c)
          match key with
          | none => return (acc, false)
          | some k => return (acc.push (.arr [.str k, strs (← Act.handleTrigger k now)]), true)) sessionBudget #[]
        return .arr handled.toList)
    | "registry_len" => some <| .ok (Act.look fun h =>
        let n := (h.warmer.map (·.registry.size)).getD 0
        Json.ofMembers [("len", Json.ofNat n), ("is_empty", .bool (n == 0))])
    | "rule_debug" => some <|
      match namedRule j s.host with
      | some r => .ok (pure (.str r.debug))
      | none => refuse "unknown rule"
    | "drain" => some <| .ok do
      Act.drain
      return .null
    | "in_flight" => some <| .ok (Act.look fun h => .bool ((h.warmer.map (·.claimed pattern)).getD false))
    | "calls" => some <| .ok (Act.look fun h => Json.ofNat ((h.warmer.map (·.callsOf pattern)).getD 0))
    | "eligibility" => some <|
      match namedRule j s.host with
      | none => refuse "unknown rule"
      | some r => withNow fun now => do return eligibilityJson (← Act.eligibility r now)
    | "last_warmed" => some <| .ok do
      return ((← Act.lastWarmed pattern).map fun t => Json.str t.render).getD .null
    | "mark_warmed" => some (withNow fun now => do
        Act.markWarmed pattern now
        return .null)
    | "stats" => some <| .ok (Act.look fun h => ((h.warmer.map fun w => statsJson w.stats)).getD .null)
    | "analyze" => some (withNow fun now => do
        let o ← Act.analyze now
        return Json.ofMembers [("users_seen", Json.ofNat o.usersSeen), ("users_pruned", Json.ofNat o.usersPruned),
          ("trained", .bool o.trained), ("predicted", Json.ofNat o.predicted), ("warmed", Json.ofNat o.warmed)])
    | "tracker" => some <| .ok (Act.look fun h =>
        .arr (((h.warmer.map (·.tracker.snapshot)).getD []).map patternJson))
    | "model" => some <| .ok (Act.look fun h => ((h.warmer.bind (·.predictor.model)).map modelJson).getD .null)
    | _ => none
  plan.map fun p =>
    if s.host.warmer.isSome then p
    else if s.serviceMode && name == "register" then .error (stepAnswer (.error (.config "cache warming is disabled")))
    else refuse "session has no scheduler"

/-- The plan of a step. -/
def plan (s : Session) (j : Json) : Plan :=
  let name := (str? j "do").getD ""
  let found := (cacheStep s j name).orElse fun _ => (backendStep s j name).orElse fun _ =>
    (serviceStep s j name).orElse fun _ => (sourceStep j name).orElse fun _ => warmingStep s j name
  found.getD (refuse ("unknown session step " ++ name))

namespace Session

/-- Runs one step. The service's observation and its exposition text read the host between
flows; every other step is planned and driven. -/
def step (s : Session) (j : Json) : Except String (Json × Session) :=
  match str? j "do" with
  | some "observability" => .ok (observationJson (observe s.host), s)
  | some "render" =>
    let e := s.exporter.update (observe s.host)
    .ok (.str e.render, { s with exporter := e })
  | _ =>
    match plan s j with
    | .error answer => .ok (answer, s)
    | .ok act => do
      let (r, s) ← s.perform act
      return (r.getD stuckAnswer, s)

end Session

/-- A session request: the set-up, then each step in turn. -/
def sessionRequest (req : Json) : Json :=
  match Session.create req with
  | .error answer => answer
  | .ok s =>
    match runHalting Session.step s ((list? req "ops").getD []) with
    | .ok answers => ok (.arr answers)
    | .error msg => halted msg

end Console

end TierCache
