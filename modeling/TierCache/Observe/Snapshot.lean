import TierCache.Store.Metrics
import TierCache.Store.Breaker
import TierCache.Warming.Stats
/-!
# Observations of the service

One reading of everything the service reports: the cache's counters with its hit rate and mean
latency, the breaker of the distributed tier when there is one, the warming scheduler's
statistics when warming runs, and whether the cache runs on memory alone.
-/

namespace TierCache

/-- The cache's counters as read at one moment. -/
structure CacheReading where
  counters : Metrics := {}
  /-- Hits over lookups. -/
  hitRate : Float := 0
  /-- Mean latency of the recent operations, in microseconds. -/
  averageLatencyUs : Nat := 0
  deriving Repr, Inhabited

/-- Everything the service reports at one moment. -/
structure Observation where
  cache : CacheReading := {}
  circuit : Option BreakerSnapshot := none
  warming : Option WarmingStats := none
  memoryOnly : Bool := true
  /-- The name of the distributed backend, when there is one. -/
  backend : Option String := none
  deriving Repr, Inhabited

end TierCache
