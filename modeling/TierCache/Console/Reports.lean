import TierCache.Console.Fields
import TierCache.Json.Decode
import TierCache.Observe.Health
import TierCache.Observe.Exposition
/-!
# Console requests for the service's reports

A health report built from given checks, and the exposition text of the metric series after each
of a run of observations. Observations and checks are read as typed records: a wrong member
is refused with the reason, while an absent one takes its default.
-/

namespace TierCache

namespace Console

open Json

/-- A check: its name and status are required, its message is optional. -/
def checkOfJson (j : Json) : Except Mismatch HealthCheck := do
  let ms ← members "HealthCheckResult" j
  let bad := memberFault ms fun k v => match k with
    | "name" => faultOf (toStr v)
    | "status" => faultOf (toName HealthStatus.names v)
    | "message" => faultOf (readOpt [(k, v)] k toStr)
    | _ => none
  if let some m := bad then throw m
  let name ← readReq ms "name" toStr
  let status ← readReq ms "status" (toName HealthStatus.names)
  let message ← readOpt ms "message" toStr
  return { name, status := (HealthStatus.ofName? status).getD .healthy, message }

/-- A check as a report shows it. -/
def checkJson (c : HealthCheck) : Json :=
  Json.ofMembers [("name", .str c.name), ("status", .str c.status.name), ("message", Json.ofOption c.message)]

/-- A health report. -/
def healthJson (r : HealthReport) : Json :=
  Json.ofMembers [("status", .str r.status.name), ("checks", .arr (r.checks.map checkJson)),
    ("version", .str r.version), ("uptime_seconds", Json.ofNat r.uptimeSeconds),
    ("is_operational", .bool r.status.isOperational), ("is_healthy", .bool r.status.isHealthy),
    ("status_display", .str r.status.name)]

/-- The report of the given checks and uptime. -/
def healthRequest (req : Json) : Json :=
  match (readOpt (match req with | .obj ms => ms | _ => []) "checks" (toList checkOfJson)) with
  | .error m => badInput ("bad checks: " ++ m.message)
  | .ok checks => ok (healthJson (HealthReport.ofChecks (checks.getD []) ((nat? req "uptime_secs").getD 0)))

/-- The members of a reading that are counts, with the counter each one sets. -/
def countMembers : List (String × (Metrics → Nat → Metrics)) :=
  [("hits", fun m n => { m with hits := n }), ("misses", fun m n => { m with misses := n }),
   ("sets", fun m n => { m with sets := n }), ("deletes", fun m n => { m with deletes := n }),
   ("evictions", fun m n => { m with evictions := n }),
   ("expirations", fun m n => { m with expirations := n }),
   ("errors", fun m n => { m with errors := n }),
   ("memory_hits", fun m n => { m with memoryHits := n }),
   ("distributed_hits", fun m n => { m with distributedHits := n }),
   ("write_behind_scheduled", fun m n => { m with writeBehindScheduled := n }),
   ("write_behind_failed", fun m n => { m with writeBehindFailed := n }),
   ("warm_triggers_dropped", fun m n => { m with warmTriggersDropped := n }),
   ("memory_entries", fun m n => { m with memoryEntries := n }),
   ("memory_bytes", fun m n => { m with memoryBytes := n })]

/-- A cache reading; every absent member is zero. -/
def cacheReadingOfJson (j : Json) : Except Mismatch CacheReading := do
  let ms ← members "MetricsSnapshot" j
  let bad := memberFault ms fun k v =>
    if (countMembers.lookup k).isSome || k == "average_latency_us" then faultOf (readOpt [(k, v)] k toU64)
    else if k == "hit_rate" then faultOf (readOpt [(k, v)] k toF64)
    else if k == "latency_samples" then faultOf (readOpt [(k, v)] k toUsize)
    else none
  if let some m := bad then throw m
  let mut counters : Metrics := {}
  for (k, set) in countMembers do
    counters := set counters (← readOr ms k toU64 0)
  counters := { counters with latencySamples := ← readOr ms "latency_samples" toUsize 0 }
  return { counters, hitRate := ← readOr ms "hit_rate" toF64 0,
           averageLatencyUs := ← readOr ms "average_latency_us" toU64 0 }

/-- The names of the breaker's states. -/
def breakerStateNames : List String := ["Closed", "Open", "HalfOpen"]

/-- The breaker state of a name. -/
def breakerStateOf : String → BreakerState
  | "Open" => .open
  | "HalfOpen" => .halfOpen
  | _ => .closed

/-- A breaker snapshot; an absent state is closed and an absent count is zero. -/
def breakerSnapshotOfJson (j : Json) : Except Mismatch BreakerSnapshot := do
  let ms ← members "CircuitSnapshot" j
  let bad := memberFault ms fun k v => match k with
    | "state" => faultOf (readOpt [(k, v)] k (toName breakerStateNames))
    | "failure_count" | "failure_threshold" => faultOf (readOpt [(k, v)] k toU32)
    | "recovery_timeout_secs" | "trips" | "seconds_since_last_failure" => faultOf (readOpt [(k, v)] k toU64)
    | _ => none
  if let some m := bad then throw m
  return { state := breakerStateOf (← readOr ms "state" (toName breakerStateNames) "Closed"),
           failures := ← readOr ms "failure_count" toU32 0,
           threshold := ← readOr ms "failure_threshold" toU32 0,
           recoverySecs := ← readOr ms "recovery_timeout_secs" toU64 0,
           secondsSinceFailure := ← readOpt ms "seconds_since_last_failure" toU64,
           trips := ← readOr ms "trips" toU64 0 }

/-- Warming statistics; every absent member is zero. -/
def warmingStatsOfJson (j : Json) : Except Mismatch WarmingStats := do
  let ms ← members "WarmingStats" j
  let bad := memberFault ms fun k v => match k with
    | "total_items_warmed" | "runs" | "failures" | "skipped_busy" | "triggers_received"
    | "predicted_users_warmed" | "analysis_passes" => faultOf (readOpt [(k, v)] k toU64)
    | "active_tasks" | "registered_rules" | "tracked_patterns" => faultOf (readOpt [(k, v)] k toUsize)
    | "average_warming_duration_ms" => faultOf (readOpt [(k, v)] k toF64)
    | "predictor_trained" => faultOf (readOpt [(k, v)] k toBool)
    | _ => none
  if let some m := bad then throw m
  return { totalItemsWarmed := ← readOr ms "total_items_warmed" toU64 0,
           averageDurationMs := ← readOr ms "average_warming_duration_ms" toF64 0,
           activeTasks := ← readOr ms "active_tasks" toUsize 0,
           registeredRules := ← readOr ms "registered_rules" toUsize 0,
           trackedPatterns := ← readOr ms "tracked_patterns" toUsize 0,
           runs := ← readOr ms "runs" toU64 0, failures := ← readOr ms "failures" toU64 0,
           skippedBusy := ← readOr ms "skipped_busy" toU64 0,
           triggersReceived := ← readOr ms "triggers_received" toU64 0,
           predictedUsersWarmed := ← readOr ms "predicted_users_warmed" toU64 0,
           analysisPasses := ← readOr ms "analysis_passes" toU64 0,
           predictorTrained := ← readOr ms "predictor_trained" toBool false }

/-- Reads a part of an observation, naming the part when it is refused. -/
def observationPart {α : Type} (u : Json) (key what : String) (read : Json → Except Mismatch α) :
    Except String (Option α) :=
  match u.get? key with
  | none => .ok none
  | some v => match read v with
    | .ok a => .ok (some a)
    | .error m => .error ("bad " ++ what ++ ": " ++ m.message)

/-- An observation as an update gives it. -/
def observationOfJson (u : Json) : Except String Observation := do
  let cache ← observationPart u "cache" "cache snapshot" cacheReadingOfJson
  let circuit ← observationPart u "circuit" "circuit snapshot" breakerSnapshotOfJson
  let warming ← observationPart u "warming" "warming stats" warmingStatsOfJson
  let memoryOnly ← observationPart u "memory_only" "memory_only" toBool
  let backend ← observationPart u "backend" "backend" toStr
  return { cache := cache.getD {}, circuit, warming, memoryOnly := memoryOnly.getD true, backend }

/-- The exposition text after each update in turn, all fed to one exporter. -/
def exporterRequest (req : Json) : Json :=
  match ((list? req "updates").getD []).mapM observationOfJson with
  | .error msg => badInput msg
  | .ok obs =>
    let (_, texts) := obs.foldl (fun (e, acc) o => let e := e.update o; (e, acc.push (Json.str e.render)))
      (({} : Exporter), (#[] : Array Json))
    ok (Json.ofMembers [("content_type", .str expositionContentType), ("renders", .arr texts.toList)])

end Console

end TierCache
