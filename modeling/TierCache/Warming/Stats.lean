/-!
# Warming statistics

What the warming scheduler has done so far: rule runs and failures, items written, rules
running now and registered, users with an access history, and the predictive passes.
-/

namespace TierCache

/-- A reading of the warming scheduler's counters. -/
structure WarmingStats where
  totalItemsWarmed : Nat := 0
  /-- Mean duration of a rule run, in milliseconds. -/
  averageDurationMs : Float := 0
  activeTasks : Nat := 0
  registeredRules : Nat := 0
  trackedPatterns : Nat := 0
  runs : Nat := 0
  failures : Nat := 0
  /-- Eligible rules skipped because every permit was taken. -/
  skippedBusy : Nat := 0
  triggersReceived : Nat := 0
  predictedUsersWarmed : Nat := 0
  analysisPasses : Nat := 0
  predictorTrained : Bool := false
  deriving Repr, Inhabited

end TierCache
