/-!
# The circuit breaker

The breaker in front of the distributed tier counts consecutive failures. Closed, it admits every
call and opens once the count reaches the threshold. Open, it refuses calls until the recovery
time has passed since the last failure; the next call then finds it half open and is admitted as
a trial. A success closes it and clears the count; a failure while half open opens it again.

Times are milliseconds on the cache's clock.
-/

namespace TierCache

/-- The three states of a breaker. -/
inductive BreakerState where
  | closed
  | open
  | halfOpen
  deriving Repr, DecidableEq, Inhabited

namespace BreakerState

/-- The state as it is displayed: `closed`, `open`, `half_open`. -/
def display : BreakerState → String
  | closed => "closed"
  | .open => "open"
  | halfOpen => "half_open"

/-- The state as it is serialized: `Closed`, `Open`, `HalfOpen`. -/
def tag : BreakerState → String
  | closed => "Closed"
  | .open => "Open"
  | halfOpen => "HalfOpen"

end BreakerState

/-- The largest 32-bit count; the failure count saturates there. -/
def u32Max : Nat := 4294967295

/-- A consecutive-failure circuit breaker. -/
structure Breaker where
  /-- Failures that open a closed breaker; at least one. -/
  threshold : Nat
  /-- Time an open breaker waits after its last failure before it admits a trial call. -/
  recoveryMs : Nat
  state : BreakerState := .closed
  /-- Consecutive failures since the last success. -/
  failures : Nat := 0
  lastFailure : Option Nat := none
  /-- Times the breaker has opened. -/
  trips : Nat := 0
  deriving Repr, Inhabited

/-- What the breaker reports about itself. -/
structure BreakerSnapshot where
  state : BreakerState
  failures : Nat
  threshold : Nat
  recoverySecs : Nat
  secondsSinceFailure : Option Nat
  trips : Nat
  deriving Repr, Inhabited

namespace Breaker

/-- A closed breaker; a threshold of zero acts as one. -/
def create (threshold recoverySecs : Nat) : Breaker :=
  { threshold := max threshold 1, recoveryMs := recoverySecs * 1000 }

/-- Whether a call may go ahead at `now`. An open breaker whose recovery time has passed since
its last failure turns half open and admits the call. -/
def permits (b : Breaker) (now : Nat) : Bool × Breaker :=
  match b.state with
  | .closed | .halfOpen => (true, b)
  | .open =>
    let elapsed := match b.lastFailure with
      | some last => decide (now - last ≥ b.recoveryMs)
      | none => true
    if elapsed then (true, { b with state := .halfOpen }) else (false, b)

/-- Records a successful call: the breaker closes and the count clears. -/
def success (b : Breaker) : Breaker :=
  { b with state := .closed, failures := 0 }

/-- Records a failed call at `now`. A closed breaker opens at the threshold; a half-open one
opens again at once. -/
def failure (b : Breaker) (now : Nat) : Breaker :=
  let b := { b with failures := min (b.failures + 1) u32Max, lastFailure := some now }
  match b.state with
  | .closed => if b.failures ≥ b.threshold then { b with state := .open, trips := b.trips + 1 } else b
  | .halfOpen => { b with state := .open, trips := b.trips + 1 }
  | .open => b

/-- The breaker's report at `now`; the time since the last failure is in whole seconds. -/
def snapshot (b : Breaker) (now : Nat) : BreakerSnapshot :=
  { state := b.state, failures := b.failures, threshold := b.threshold,
    recoverySecs := b.recoveryMs / 1000,
    secondsSinceFailure := b.lastFailure.map fun last => (now - last) / 1000, trips := b.trips }

end Breaker

end TierCache
