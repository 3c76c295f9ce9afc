/-!
# Cache counters

Monotonic counters of the cache's traffic, two gauges of the memory tier's occupancy, and the
number of latency samples held in a window of the last thousand operations.
-/

namespace TierCache

/-- Samples the latency window keeps. -/
def latencyWindow : Nat := 1000

/-- The cache's counters. -/
structure Metrics where
  hits : Nat := 0
  misses : Nat := 0
  sets : Nat := 0
  deletes : Nat := 0
  evictions : Nat := 0
  expirations : Nat := 0
  errors : Nat := 0
  memoryHits : Nat := 0
  distributedHits : Nat := 0
  writeBehindScheduled : Nat := 0
  writeBehindFailed : Nat := 0
  warmTriggersDropped : Nat := 0
  memoryEntries : Nat := 0
  memoryBytes : Nat := 0
  /-- Latency samples held; the window drops the oldest past `latencyWindow`. -/
  latencySamples : Nat := 0
  deriving Repr, Inhabited

namespace Metrics

/-- A hit served by the memory tier. -/
def memoryHit (m : Metrics) : Metrics := { m with hits := m.hits + 1, memoryHits := m.memoryHits + 1 }

/-- A hit served by the distributed tier. -/
def distributedHit (m : Metrics) : Metrics :=
  { m with hits := m.hits + 1, distributedHits := m.distributedHits + 1 }

def miss (m : Metrics) : Metrics := { m with misses := m.misses + 1 }

def set (m : Metrics) : Metrics := { m with sets := m.sets + 1 }

def delete (m : Metrics) : Metrics := { m with deletes := m.deletes + 1 }

def evicted (m : Metrics) (n : Nat) : Metrics := { m with evictions := m.evictions + n }

def expired (m : Metrics) (n : Nat) : Metrics := { m with expirations := m.expirations + n }

def error (m : Metrics) : Metrics := { m with errors := m.errors + 1 }

def writeBehind (m : Metrics) : Metrics := { m with writeBehindScheduled := m.writeBehindScheduled + 1 }

def writeBehindFailure (m : Metrics) : Metrics := { m with writeBehindFailed := m.writeBehindFailed + 1 }

def triggerDropped (m : Metrics) : Metrics := { m with warmTriggersDropped := m.warmTriggersDropped + 1 }

/-- Sets the memory tier's gauges. -/
def occupancy (m : Metrics) (entries bytes : Nat) : Metrics :=
  { m with memoryEntries := entries, memoryBytes := bytes }

/-- Adds a latency sample to the window. -/
def sample (m : Metrics) : Metrics := { m with latencySamples := min (m.latencySamples + 1) latencyWindow }

/-- Hits over lookups, zero before the first lookup. -/
def hitRate (m : Metrics) : Float :=
  let hits := Float.ofNat m.hits
  let total := hits + Float.ofNat m.misses
  if total == 0 then 0 else hits / total

end Metrics

end TierCache
