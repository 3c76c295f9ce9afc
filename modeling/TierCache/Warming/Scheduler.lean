import TierCache.Warming.Rule
import TierCache.Warming.Predictor
import TierCache.Warming.Stats
import TierCache.Config.Settings
/-!
# The warming scheduler at rest

The scheduler dispatches eligible rules as jobs of their own. A rule is never running twice: its
pattern is claimed before the gates are checked and released when its job ends, however it ends.
Jobs hold one of a fixed number of permits; a rule that finds none free is skipped and counted as
skipped busy. Beside the rules, the scheduler keeps the users' access patterns and the predictor
trained on them.

This module holds the scheduler's state and its changes that take no time; dispatching and the
jobs themselves live with the fibers that run them.
-/

namespace TierCache

/-- What the warming jobs have done. -/
structure WarmingCounters where
  runs : Nat := 0
  failures : Nat := 0
  itemsWarmed : Nat := 0
  /-- Total time of the runs, in microseconds. -/
  durationMicros : Nat := 0
  /-- Jobs running now. -/
  active : Nat := 0
  skippedBusy : Nat := 0
  /-- Written keys handled as triggers, markers excepted. -/
  triggers : Nat := 0
  predictedUsersWarmed : Nat := 0
  analysisPasses : Nat := 0
  deriving Repr, Inhabited

namespace WarmingCounters

/-- Records a run that took `micros` microseconds: with the items it warmed, or as a failure. -/
def recordRun (c : WarmingCounters) (items : Option Nat) (micros : Nat) : WarmingCounters :=
  let c := { c with runs := c.runs + 1, durationMicros := c.durationMicros + micros }
  match items with
  | some n => { c with itemsWarmed := c.itemsWarmed + n }
  | none => { c with failures := c.failures + 1 }

end WarmingCounters

/-- The warming scheduler's state. -/
structure Warmer where
  registry : Registry
  settings : WarmingSettings
  /-- Patterns claimed by a dispatch or a running job. -/
  inFlight : List String := []
  /-- Permits free. -/
  permits : Nat
  counters : WarmingCounters := {}
  tracker : AccessTracker
  predictor : Predictor
  /-- How often each scripted rule has started, by pattern. -/
  calls : List (String × Nat) := []
  /-- The jobs that have not ended. -/
  running : List Nat := []
  /-- The jobs dispatched since the last drain. -/
  undrained : List Nat := []
  /-- The number the next job gets. -/
  nextJob : Nat := 0
  deriving Inhabited

namespace Warmer

/-- A scheduler with no rule, as the settings describe it; a retention the calendar cannot
hold is refused. -/
def create (w : WarmingSettings) : Except TimeOverflow Warmer := do
  let tracker ← AccessTracker.create w.historyLen w.retentionDays
  return { registry := { markerTtlMs := w.markerTtlSecs * 1000 }, settings := w,
           permits := max w.maxConcurrentWarms 1, tracker,
           predictor := Predictor.create w.clusters w.minTrainingUsers w.maxPredictedUsers }

/-- Whether a pattern is claimed. -/
def claimed (w : Warmer) (pattern : String) : Bool := w.inFlight.contains pattern

/-- Releases a pattern's claim. -/
def release (w : Warmer) (pattern : String) : Warmer :=
  { w with inFlight := w.inFlight.filter (· != pattern) }

/-- How often a scripted rule has started. -/
def callsOf (w : Warmer) (pattern : String) : Nat := (w.calls.lookup pattern).getD 0

/-- Counts a start of a scripted rule. -/
def countCall (w : Warmer) (pattern : String) : Warmer :=
  { w with calls := (pattern, w.callsOf pattern + 1) :: w.calls.filter (·.1 != pattern) }

/-- Moves the counters. -/
def count (w : Warmer) (f : WarmingCounters → WarmingCounters) : Warmer :=
  { w with counters := f w.counters }

/-- Ends a job that held a claim and a permit: the claim and the permit go back and the job
leaves the running ones. -/
def finish (w : Warmer) (job : Nat) (pattern : String) : Warmer :=
  let w := w.release pattern
  { w with counters := { w.counters with active := w.counters.active - 1 }, permits := w.permits + 1,
           running := w.running.filter (· != job) }

/-- The statistics. The mean duration is in milliseconds, zero before the first run. -/
def stats (w : Warmer) : WarmingStats :=
  let c := w.counters
  { totalItemsWarmed := c.itemsWarmed
    averageDurationMs := if c.runs == 0 then 0
      else Float.ofNat c.durationMicros / Float.ofNat c.runs / 1000
    activeTasks := c.active, registeredRules := w.registry.size, trackedPatterns := w.tracker.size,
    runs := c.runs, failures := c.failures, skippedBusy := c.skippedBusy,
    triggersReceived := c.triggers, predictedUsersWarmed := c.predictedUsersWarmed,
    analysisPasses := c.analysisPasses, predictorTrained := w.predictor.model.isSome }

end Warmer

end TierCache
