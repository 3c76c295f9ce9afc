import TierCache.Console.Fields
import TierCache.Store.Distributed
import TierCache.Store.Memory

/-!
# The JSON forms of the cache's reports

The breaker's snapshot, the counters, a resident item and the backend's call counts, each as the
object the console answers with.
-/

namespace TierCache

namespace Console

/-- A breaker snapshot. -/
def breakerJson (s : BreakerSnapshot) : Json :=
  Json.ofMembers [("state", .str s.state.tag), ("failure_count", Json.ofNat s.failures),
    ("failure_threshold", Json.ofNat s.threshold), ("recovery_timeout_secs", Json.ofNat s.recoverySecs),
    ("seconds_since_last_failure", match s.secondsSinceFailure with
      | some n => Json.ofNat n
      | none => .null),
    ("trips", Json.ofNat s.trips)]

/-- The counters, without the average latency, which is a wall-clock figure. -/
def metricsJson (m : Metrics) : Json :=
  Json.ofMembers [("hits", Json.ofNat m.hits), ("misses", Json.ofNat m.misses),
    ("sets", Json.ofNat m.sets), ("deletes", Json.ofNat m.deletes),
    ("evictions", Json.ofNat m.evictions), ("expirations", Json.ofNat m.expirations),
    ("errors", Json.ofNat m.errors), ("memory_hits", Json.ofNat m.memoryHits),
    ("distributed_hits", Json.ofNat m.distributedHits),
    ("write_behind_scheduled", Json.ofNat m.writeBehindScheduled),
    ("write_behind_failed", Json.ofNat m.writeBehindFailed),
    ("warm_triggers_dropped", Json.ofNat m.warmTriggersDropped),
    ("memory_entries", Json.ofNat m.memoryEntries), ("memory_bytes", Json.ofNat m.memoryBytes),
    ("hit_rate", Json.ofFloat m.hitRate), ("latency_samples", Json.ofNat m.latencySamples)]

/-- A resident item as seen at `now`. -/
def itemJson (i : Item) (now : Nat) : Json :=
  Json.ofMembers [("value_hex", .str (hex i.value)), ("size_bytes", Json.ofNat i.size),
    ("access_count", Json.ofNat i.accessCount), ("tier", .str i.origin.name),
    ("created_ms", Json.ofNat i.created), ("expires_ms", Json.ofNat i.expires),
    ("last_accessed_ms", match i.lastAccessed with
      | some t => Json.ofNat t
      | none => .null),
    ("remaining_ttl_ms", Json.ofNat (i.remaining now))]

/-- The backend's call counts. -/
def backendStatsJson (s : BackendStats) : Json :=
  Json.ofMembers [("reads", Json.ofNat s.reads), ("writes", Json.ofNat s.writes),
    ("deletes", Json.ofNat s.deletes), ("scans", Json.ofNat s.scans)]

end Console

end TierCache
