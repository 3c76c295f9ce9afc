import TierCache.Observe.Snapshot
import TierCache.Decimal.Shortest
/-!
# Metrics in the text exposition format

The service exposes its readings as metric series, each a counter or a gauge, written as text:
per series a help line, a type line and one sample, the series sorted by name. A counter only
moves forward: a reading below its count leaves it where it is, since the source it follows may
have been read before a restart. A gauge takes whatever it is set to. Every sample is written as
a double with the fewest digits that read back, without exponent.
-/

namespace TierCache

/-- The value a series holds. -/
inductive Reading where
  /-- A counter: a count that never goes down. -/
  | count (n : Nat)
  /-- An integer gauge, a signed 64-bit value. -/
  | level (x : Int)
  /-- A gauge that holds a double. -/
  | amount (x : Float)
  deriving Repr, Inhabited

namespace Reading

/-- The type a series of this reading is exposed as. -/
def typeName : Reading → String
  | .count _ => "counter"
  | _ => "gauge"

/-- The sample, which the format carries as a double. -/
def sample : Reading → Float
  | .count n => Float.ofNat n
  | .level x => Float.ofInt x
  | .amount x => x

/-- A counter follows a count that only grows: it moves up to `n`, never down. A gauge is left
alone. -/
def follow (n : Nat) : Reading → Reading
  | .count c => if n > c then .count n else .count c
  | r => r

end Reading

/-- A signed 64-bit value with the bits of the unsigned one: values from `2^63` on wrap around
to negatives. -/
def wrapSigned (n : Nat) : Int :=
  let m : Nat := n % Nat.pow 2 64
  if m < Nat.pow 2 63 then (m : Int) else (m : Int) - Int.pow 2 64

/-- A double as a sample is written: the fewest digits that read back, never with an exponent,
no `.0` on a whole number, and `NaN`, `inf`, `-inf` for the values that are no number. -/
def sampleText (f : Float) : String :=
  match Decimal.Shortest.ofFloat f with
  | .nan => "NaN"
  | .infinite neg => if neg then "-inf" else "inf"
  | .finite neg s => (if neg then "-" else "") ++ s.positional false

/-- One named series. -/
structure Series where
  name : String
  help : String
  reading : Reading
  deriving Repr, Inhabited

namespace Series

/-- The lines of a series: help, type, sample. -/
def render (s : Series) : String :=
  "# HELP " ++ s.name ++ " " ++ s.help ++ "\n" ++
  "# TYPE " ++ s.name ++ " " ++ s.reading.typeName ++ "\n" ++
  s.name ++ " " ++ sampleText s.reading.sample ++ "\n"

end Series

/-- The prefix of every series the service exposes. -/
def seriesPrefix : String := "tierwarm_"

/-- The media type of the text. -/
def expositionContentType : String := "text/plain; version=0.0.4"

/-- The series the service exposes, at rest. -/
def seriesCatalog : List Series :=
  let counter (n h : String) : Series := ⟨seriesPrefix ++ n, h, .count 0⟩
  let level (n h : String) : Series := ⟨seriesPrefix ++ n, h, .level 0⟩
  let amount (n h : String) : Series := ⟨seriesPrefix ++ n, h, .amount 0⟩
  [counter "cache_hits_total" "Lookups served by either tier",
   counter "cache_misses_total" "Lookups served by neither tier",
   counter "cache_memory_hits_total" "Lookups served by the memory tier",
   counter "cache_distributed_hits_total" "Lookups served by the distributed tier",
   counter "cache_sets_total" "Set operations",
   counter "cache_deletes_total" "Delete operations",
   counter "cache_evictions_total" "Memory tier evictions",
   counter "cache_expirations_total" "Memory tier expirations",
   counter "cache_errors_total" "Tier and codec errors absorbed",
   counter "cache_write_behind_failed_total" "Deferred distributed writes that failed",
   counter "cache_warm_triggers_dropped_total" "Warm triggers dropped on a full queue",
   level "cache_memory_entries" "Resident memory tier entries",
   level "cache_memory_bytes" "Memory tier payload bytes",
   amount "cache_hit_rate" "Hits over lookups",
   amount "cache_average_latency_seconds" "Mean operation latency over the recent window",
   level "distributed_up" "1 when a distributed tier is configured",
   level "circuit_state" "Circuit breaker state (0 closed, 1 half-open, 2 open)",
   level "circuit_failures" "Consecutive distributed failures",
   counter "circuit_trips_total" "Times the breaker opened",
   counter "warming_runs_total" "Warming rule executions",
   counter "warming_failures_total" "Failed warming rule executions",
   counter "warming_items_total" "Items written by warming",
   level "warming_active_tasks" "Warming rules running now",
   level "warming_rules" "Registered warming rules",
   amount "warming_average_duration_seconds" "Mean warming rule duration",
   level "warming_tracked_patterns" "Users with access history",
   counter "warming_predicted_users_total" "Users warmed by prediction"]

/-- The code a breaker state is exposed as. -/
def BreakerState.code : BreakerState → Int
  | .closed => 0
  | .halfOpen => 1
  | .open => 2

/-- The service's series, kept sorted by name. -/
structure Exporter where
  series : List Series := seriesCatalog.mergeSort fun a b => decide (a.name ≤ b.name)
  deriving Repr, Inhabited

namespace Exporter

/-- Changes the reading of the series `name` (without the prefix). -/
def change (e : Exporter) (name : String) (f : Reading → Reading) : Exporter :=
  { series := e.series.map fun s => if s.name == seriesPrefix ++ name then { s with reading := f s.reading } else s }

/-- Moves a counter up to `n`. -/
def follow (e : Exporter) (name : String) (n : Nat) : Exporter := e.change name (·.follow n)

/-- Sets an integer gauge. -/
def setLevel (e : Exporter) (name : String) (x : Int) : Exporter := e.change name fun _ => .level x

/-- Sets a double gauge. -/
def setAmount (e : Exporter) (name : String) (x : Float) : Exporter := e.change name fun _ => .amount x

/-- Takes in the cache's counters and gauges. -/
def takeCache (e : Exporter) (c : CacheReading) : Exporter :=
  let m := c.counters
  e |>.follow "cache_hits_total" m.hits
    |>.follow "cache_misses_total" m.misses
    |>.follow "cache_memory_hits_total" m.memoryHits
    |>.follow "cache_distributed_hits_total" m.distributedHits
    |>.follow "cache_sets_total" m.sets
    |>.follow "cache_deletes_total" m.deletes
    |>.follow "cache_evictions_total" m.evictions
    |>.follow "cache_expirations_total" m.expirations
    |>.follow "cache_errors_total" m.errors
    |>.follow "cache_write_behind_failed_total" m.writeBehindFailed
    |>.follow "cache_warm_triggers_dropped_total" m.warmTriggersDropped
    |>.setLevel "cache_memory_entries" (wrapSigned m.memoryEntries)
    |>.setLevel "cache_memory_bytes" (wrapSigned m.memoryBytes)
    |>.setAmount "cache_hit_rate" c.hitRate
    |>.setAmount "cache_average_latency_seconds" (Float.ofNat c.averageLatencyUs / 1000000)

/-- Takes in the breaker's state, failure count and trips. -/
def takeCircuit (e : Exporter) (b : BreakerSnapshot) : Exporter :=
  e |>.setLevel "circuit_state" b.state.code
    |>.setLevel "circuit_failures" b.failures
    |>.follow "circuit_trips_total" b.trips

/-- Takes in the warming scheduler's statistics. -/
def takeWarming (e : Exporter) (w : WarmingStats) : Exporter :=
  e |>.follow "warming_runs_total" w.runs
    |>.follow "warming_failures_total" w.failures
    |>.follow "warming_items_total" w.totalItemsWarmed
    |>.follow "warming_predicted_users_total" w.predictedUsersWarmed
    |>.setLevel "warming_active_tasks" (wrapSigned w.activeTasks)
    |>.setLevel "warming_rules" (wrapSigned w.registeredRules)
    |>.setLevel "warming_tracked_patterns" (wrapSigned w.trackedPatterns)
    |>.setAmount "warming_average_duration_seconds" (w.averageDurationMs / 1000)

/-- Takes in one observation. A part that the observation lacks (no breaker, no warming)
leaves its series as they were. -/
def update (e : Exporter) (o : Observation) : Exporter :=
  let e := (e.takeCache o.cache).setLevel "distributed_up" (if o.memoryOnly then 0 else 1)
  let e := match o.circuit with
    | some b => e.takeCircuit b
    | none => e
  match o.warming with
  | some w => e.takeWarming w
  | none => e

/-- The text of every series, in name order. -/
def render (e : Exporter) : String := String.join (e.series.map Series.render)

end Exporter

end TierCache
