import TierCache.Frame.Codec
import TierCache.Json.Value

/-!
# Settings

Every option of the cache and its warming engine, with its default, the checks that reject
settings the cache cannot run with, and the settings' JSON form.
-/

namespace TierCache

/-- The distributed tier's connection. -/
structure DistributedSettings where
  /-- Endpoint URLs; none means the cache runs on its memory tier alone. -/
  endpoints : List String := []
  /-- A password applied to every endpoint. -/
  credential : Option String := none
  requestTimeoutMs : Nat := 500
  /-- Background writes allowed in flight at once. -/
  writeBehindConcurrency : Nat := 64
  deriving Repr, Inhabited

/-- The memory tier. -/
structure MemorySettings where
  capacity : Nat := 10000
  sweepIntervalSecs : Nat := 60
  deriving Repr, Inhabited

/-- The circuit breaker. -/
structure BreakerSettings where
  failureThreshold : Nat := 5
  recoveryTimeoutSecs : Nat := 30
  deriving Repr, Inhabited

/-- The warming scheduler and the predictor. -/
structure WarmingSettings where
  enabled : Bool := true
  intervalSecs : Nat := 60
  maxConcurrentWarms : Nat := 8
  triggerQueueCapacity : Nat := 1024
  markerTtlSecs : Nat := 86400
  analysisIntervalSecs : Nat := 3600
  minTrainingUsers : Nat := 10
  clusters : Nat := 3
  historyLen : Nat := 100
  retentionDays : Int := 30
  maxPredictedUsers : Nat := 100
  deriving Repr, Inhabited

/-- All settings of the cache. -/
structure CacheConfig where
  distributed : DistributedSettings := {}
  memory : MemorySettings := {}
  defaultTtlSecs : Nat := 3600
  compression : Compression := {}
  circuitBreaker : BreakerSettings := {}
  warming : WarmingSettings := {}
  metricsEnabled : Bool := true
  metricsIntervalSecs : Nat := 30
  deriving Repr, Inhabited

namespace CacheConfig

/-- The first setting the cache cannot run with, in a fixed order of checks. -/
def validate (c : CacheConfig) : Except CacheError Unit :=
  let fail := fun (d : String) => Except.error (CacheError.config d)
  if c.memory.capacity == 0 then fail "memory.capacity must be > 0"
  else if c.defaultTtlSecs == 0 then fail "default_ttl_secs must be > 0"
  else if c.memory.sweepIntervalSecs == 0 then fail "memory.sweep_interval_secs must be > 0"
  else if c.circuitBreaker.failureThreshold == 0 then fail "circuit_breaker.failure_threshold must be > 0"
  else if c.distributed.requestTimeoutMs == 0 then fail "distributed.request_timeout_ms must be > 0"
  else if c.distributed.writeBehindConcurrency == 0 then
    fail "distributed.write_behind_concurrency must be > 0"
  else if c.warming.intervalSecs == 0 || c.warming.analysisIntervalSecs == 0 then
    fail "warming intervals must be > 0"
  else if c.warming.maxConcurrentWarms == 0 || c.warming.triggerQueueCapacity == 0 then
    fail "warming concurrency and queue capacity must be > 0"
  else if c.warming.clusters == 0 then fail "warming.clusters must be > 0"
  else if c.warming.historyLen == 0 then fail "warming.history_len must be > 0"
  else if c.metricsIntervalSecs == 0 then fail "metrics_interval_secs must be > 0"
  else .ok ()

/-- The settings as a JSON object, every field present. -/
def toJson (c : CacheConfig) : Json :=
  let d := c.distributed
  let w := c.warming
  Json.ofMembers [
    ("distributed", Json.ofMembers [("endpoints", .arr (d.endpoints.map .str)),
      ("credential", Json.ofOption d.credential), ("request_timeout_ms", Json.ofNat d.requestTimeoutMs),
      ("write_behind_concurrency", Json.ofNat d.writeBehindConcurrency)]),
    ("memory", Json.ofMembers [("capacity", Json.ofNat c.memory.capacity),
      ("sweep_interval_secs", Json.ofNat c.memory.sweepIntervalSecs)]),
    ("default_ttl_secs", Json.ofNat c.defaultTtlSecs),
    ("compression", Json.ofMembers [("enabled", .bool c.compression.enabled),
      ("threshold_bytes", Json.ofNat c.compression.thresholdBytes),
      ("level", Json.ofInt c.compression.level)]),
    ("circuit_breaker", Json.ofMembers [("failure_threshold", Json.ofNat c.circuitBreaker.failureThreshold),
      ("recovery_timeout_secs", Json.ofNat c.circuitBreaker.recoveryTimeoutSecs)]),
    ("warming", Json.ofMembers [("enabled", .bool w.enabled), ("interval_secs", Json.ofNat w.intervalSecs),
      ("max_concurrent_warms", Json.ofNat w.maxConcurrentWarms),
      ("trigger_queue_capacity", Json.ofNat w.triggerQueueCapacity),
      ("marker_ttl_secs", Json.ofNat w.markerTtlSecs),
      ("analysis_interval_secs", Json.ofNat w.analysisIntervalSecs),
      ("min_training_users", Json.ofNat w.minTrainingUsers), ("clusters", Json.ofNat w.clusters),
      ("history_len", Json.ofNat w.historyLen), ("retention_days", Json.ofInt w.retentionDays),
      ("max_predicted_users", Json.ofNat w.maxPredictedUsers)]),
    ("metrics_enabled", .bool c.metricsEnabled),
    ("metrics_interval_secs", Json.ofNat c.metricsIntervalSecs)]

end CacheConfig

end TierCache
