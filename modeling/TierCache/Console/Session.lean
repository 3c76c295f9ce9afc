import TierCache.Console.Rules
import TierCache.Console.Stateless
import TierCache.Console.Forms
import TierCache.Config.Schema
import TierCache.Service.Lifecycle
import TierCache.Observe.Exposition
import TierCache.Observe.Snapshot
/-!
# Console sessions

A session is a host set up from a request, with the fibers running beside it, run through a list
of steps. Each step is a main flow that the pool drives to its end; background fibers (write-behind
writes, warming jobs, the service's loops) run while it waits.

How the host is set up depends on the mode:

- `plain`: a cache, with a trigger queue of `trigger_capacity` when one is given;
- `scheduler`: a cache and a warming scheduler with no rule, with the scheduler's trigger queue;
- `connect`: a cache on memory alone;
- `service`: the settings are checked, then a cache and, when warming is on, a scheduler with the
  standard rules and a trigger queue of its own; a queue asked for by `trigger_capacity` is
  attached first, so a service with warming on refuses it;
- `service_connect`: as `service`, on memory alone.

A failed set-up is the answer for the whole request, and so is a step that stops everything.
-/

namespace TierCache

namespace Console

/-- A session between steps. -/
structure Session where
  host : Host
  pool : Pool Host := {}
  /-- Whether the cache's events are followed. -/
  subscribed : Bool
  /-- Whether the trigger queue is the session's to read. -/
  readsTriggers : Bool
  /-- Whether a service runs. -/
  serviceMode : Bool
  exporter : Exporter := {}

/-- The most steps a fiber takes in one turn, and the most turns in one session step. -/
def sessionBudget : Nat := 100000000

/-- The answer of a step that could not finish. -/
def stuckAnswer : Json := fail "Internal" "the step could not finish"

namespace Session

/-- Drives a main flow to its end beside the session's fibers; `none` when it could not finish.
A flow that stops everything ends the session with its message. -/
def perform {α : Type} (s : Session) (main : Act α) : Except String (Option α × Session) :=
  match Host.stage.drive sessionBudget sessionBudget s.host s.pool main with
  | .ended a h p => .ok (some a, { s with host := h, pool := p })
  | .halted h => .error (h.panic.getD "")
  | .stuck h => .ok (none, { s with host := h })

/-- A new trigger queue; a queue with no room is refused as the channel refuses it. -/
def triggerQueue (capacity : Nat) : Except Json TriggerQueue :=
  if capacity == 0 then .error (halted "mpsc bounded channel requires buffer > 0") else .ok { capacity }

/-- A warming scheduler as the settings describe it, or the overflow that stops the request. -/
def warmer (c : CacheConfig) : Except Json Warmer :=
  (Warmer.create c.warming).mapError fun e => halted e.message

/-- Sets a session up from a request; a refusal is the whole answer. -/
def create (req : Json) : Except Json Session := do
  let config ← (CacheConfig.ofJson ((req.field? "config").getD (.obj []))).mapError fun m =>
    badInput ("bad config: " ++ m.message)
  let source ← (sourceWith {} ((req.field? "source").getD (.obj []))).mapError badInput
  let mode := (str? req "mode").getD "plain"
  let connected := mode == "connect" || mode == "service_connect"
  let cache := TieredCache.create .lz4 config (!connected && (bool? req "backend").getD true)
  let subscribed := (bool? req "subscribe").getD true
  let cache := if subscribed then { cache with events := some {} } else cache
  let host : Host := { cache, source }
  match mode with
  | "plain" | "connect" =>
    match nat? req "trigger_capacity" with
    | none => return { host, subscribed, readsTriggers := false, serviceMode := false }
    | some n =>
      let q ← triggerQueue n
      return { host := { host with cache := { cache with triggers := some q } }, subscribed,
               readsTriggers := true, serviceMode := false }
  | "scheduler" =>
    let w ← warmer config
    let q ← triggerQueue config.warming.triggerQueueCapacity
    return { host := { host with cache := { cache with triggers := some q }, warmer := some w }, subscribed,
             readsTriggers := true, serviceMode := false }
  | "service" | "service_connect" =>
    if let .error e := config.validate then throw (failWith e)
    let mine ← match nat? req "trigger_capacity" with
      | none => pure none
      | some n => some <$> triggerQueue n
    let service : Lifecycle := { config }
    if config.warming.enabled then
      if mine.isSome then throw (failWith (.config "cache already has a warming trigger attached"))
      let registry ← match ({ markerTtlMs := config.warming.markerTtlSecs * 1000 } : Registry).registerStandard with
        | .ok g => pure g
        | .error e => throw (failWith e)
      let q ← triggerQueue config.warming.triggerQueueCapacity
      let w ← warmer config
      return { host := { host with cache := { cache with triggers := some q }, warmer := some { w with registry },
                                   service := some service },
               subscribed, readsTriggers := false, serviceMode := true }
    else
      return { host := { host with cache := { cache with triggers := mine }, service := some service },
               subscribed, readsTriggers := mine.isSome, serviceMode := true }
  | other => throw (badInput ("unknown mode " ++ other))

end Session

/-- What the service reports at this moment. The average latency, a wall-clock figure, reads
zero, and so does the memory tier's byte count once the loops have run. -/
def observe (h : Host) : Observation :=
  let m := h.cache.metrics
  let m := if h.stamped then { m with memoryBytes := 0 } else m
  { cache := { counters := m, hitRate := m.hitRate, averageLatencyUs := 0 },
    circuit := h.cache.distributed.map fun d => d.breaker.snapshot h.clock,
    warming := h.warmer.map Warmer.stats, memoryOnly := h.cache.memoryOnly,
    backend := h.cache.backendName }

/-- An observation as JSON. -/
def observationJson (o : Observation) : Json :=
  let cache := match metricsJson o.cache.counters with
    | .obj ms => Json.ofMembers (("average_latency_us", Json.ofNat o.cache.averageLatencyUs) :: ms)
    | other => other
  Json.ofMembers [("cache", cache), ("circuit", (o.circuit.map breakerJson).getD .null),
    ("warming", (o.warming.map statsJson).getD .null), ("memory_only", .bool o.memoryOnly),
    ("backend", Json.ofOption o.backend)]

/-- A health report without its uptime. -/
def reportJson (checks : List HealthCheck) : Json :=
  let r := HealthReport.ofChecks checks 0
  Json.ofMembers [("status", .str r.status.name), ("checks", .arr (r.checks.map checkJson)),
    ("version", .str r.version)]

end Console

end TierCache
