import TierCache.Store.Backend
import TierCache.Store.Breaker
import TierCache.Store.Metrics

/-!
# The guarded distributed tier

Every call to the backend passes the circuit breaker and runs under the request timeout. A
breaker that refuses answers `CircuitOpen` at once, with nothing counted. A call that goes
through and succeeds closes the breaker; one that fails with a transient error (the backend's
own, or the timeout) counts as a breaker failure, and every failure counts as an error.
-/

namespace TierCache

/-- The backend behind its breaker and timeout. -/
structure DistributedTier where
  backend : Backend := {}
  breaker : Breaker
  timeoutMs : Nat
  deriving Inhabited

/-- A distributed call's effect: the tier and counters after it, the time it ended, and its
answer. -/
abbrev Guarded (α : Type) := DistributedTier × Metrics × Nat × Except CacheError α

namespace DistributedTier

/-- A tier over an empty backend. -/
def create (threshold recoverySecs timeoutMs : Nat) : DistributedTier :=
  { breaker := Breaker.create threshold recoverySecs, timeoutMs }

/-- The backend's name. -/
def name : String := "memory"

/-- A call the breaker let through: how long its caller waits, if at all, and whether the wait
ends by the request timeout rather than by the answer. -/
structure Admitted where
  call : BackendCall
  waitMs : Option Nat
  timedOut : Bool

/-- Starts a call at `now`. The breaker may refuse it (`none`); otherwise the backend counts it
and its delay is read: the caller waits for the delay, or for the timeout if that is shorter. A
delay equal to the timeout still completes. -/
def start (d : DistributedTier) (c : BackendCall) (now : Nat) : DistributedTier × Option Admitted :=
  let (admitted, breaker) := d.breaker.permits now
  let d := { d with breaker }
  if !admitted then (d, none) else
  let backend := { d.backend with stats := c.count d.backend.stats }
  ({ d with backend }, some ⟨c, d.backend.latency.map (min · d.timeoutMs),
    d.backend.latency.any (· > d.timeoutMs)⟩)

/-- How an admitted call ends at `now` on the in-process backend: a timed-out call never acts;
otherwise the backend fails if failure is switched on, or acts on the store. -/
def outcome (d : DistributedTier) (a : Admitted) (now : Nat) : Except CacheError (Backend × BackendReply) :=
  if a.timedOut then .error (.timeout a.call.operation (Span.ofMillis d.timeoutMs))
  else if d.backend.failing then .error (.backend "injected failure")
  else .ok (d.backend.act a.call now)

/-- Books how an admitted call ended at `now`, whatever the backend behind the tier. A success
closes the breaker; a transient failure counts against it and an error the backend chose to
answer closes it, and every failure counts as an error. -/
def settle (d : DistributedTier) (m : Metrics) (r : Except CacheError (Backend × BackendReply))
    (now : Nat) : DistributedTier × Metrics × Except CacheError BackendReply :=
  match r with
  | .ok (backend, v) => ({ d with backend, breaker := d.breaker.success }, m, .ok v)
  | .error e =>
    let breaker := if e.isTransient then d.breaker.failure now else d.breaker.success
    ({ d with breaker }, m.error, .error e)

/-- Ends an admitted call at `now` on the in-process backend. -/
def complete (d : DistributedTier) (m : Metrics) (a : Admitted) (now : Nat) :
    DistributedTier × Metrics × Except CacheError BackendReply :=
  d.settle m (d.outcome a now) now

/-- Runs one call through the breaker and under the timeout, starting at `now`. -/
def guarded (d : DistributedTier) (m : Metrics) (c : BackendCall) (now : Nat) :
    Guarded BackendReply :=
  match d.start c now with
  | (d, none) => (d, m, now, .error .circuitOpen)
  | (d, some a) =>
    let now := now + a.waitMs.getD 0
    let (d, m, r) := d.complete m a now
    (d, m, now, r)

/-- Reads the answer of a call as the type the caller wants. -/
def expect {α : Type} (g : Guarded BackendReply) (read : BackendReply → α) : Guarded α :=
  let (d, m, now, r) := g
  (d, m, now, r.map read)

/-- Fetches a frame. -/
def get (d : DistributedTier) (m : Metrics) (key : String) (now : Nat) : Guarded (Option ByteArray) :=
  expect (d.guarded m (.get key) now) fun
    | .frame f => f
    | _ => none

/-- Stores a frame with a time to live. -/
def set (d : DistributedTier) (m : Metrics) (key : String) (frame : ByteArray) (ttlMs : Nat)
    (now : Nat) : Guarded Unit :=
  expect (d.guarded m (.setex key frame ttlMs) now) fun _ => ()

/-- Removes a key; whether it existed. -/
def delete (d : DistributedTier) (m : Metrics) (key : String) (now : Nat) : Guarded Bool :=
  expect (d.guarded m (.delete key) now) fun
    | .removed b => b
    | _ => false

/-- Removes the keys a glob matches; a pattern with no glob characters is a single delete. -/
def deleteMatching (d : DistributedTier) (m : Metrics) (pattern : String) (now : Nat) : Guarded Nat :=
  if Glob.isPattern pattern then
    expect (d.guarded m (.deleteMatching pattern) now) fun
      | .count n => n
      | _ => 0
  else
    expect (d.guarded m (.delete pattern) now) fun
      | .removed b => if b then 1 else 0
      | _ => 0

/-- Checks that the backend answers. -/
def ping (d : DistributedTier) (m : Metrics) (now : Nat) : Guarded Unit :=
  expect (d.guarded m .ping now) fun _ => ()

/-- Whether the breaker admits calls, without moving it out of the open state. -/
def available (d : DistributedTier) : Bool := d.breaker.state != .open

end DistributedTier

end TierCache
