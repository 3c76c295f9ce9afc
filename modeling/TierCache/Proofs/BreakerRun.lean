import TierCache.Store.Distributed

/-!
# The breaker along a run of the distributed tier

Calls made one after the other, with the breaker's history kept beside the tier (`GuardedRun`).

Main statement: `guarded_run_breaker_bookkeeping`.
-/

namespace TierCache

namespace BreakerState

/-- The moves of a breaker's state: closed trips open, open is probed half open, and a trial call
closes it or trips it open again. -/
inductive Edge : BreakerState → BreakerState → Prop
  | trip : Edge .closed .open
  | probe : Edge .open .halfOpen
  | recover : Edge .halfOpen .closed
  | retrip : Edge .halfOpen .open

end BreakerState

/-- The streak of transient failures after one more call ended. -/
def streakAfter (n : Nat) : Option CacheError → Nat
  | some e => if e.isTransient then n + 1 else 0
  | none => 0

/-- The transient failures since the last success or answered error, of calls that ended in this
order. -/
def failureStreak (ended : List (Option CacheError)) : Nat := ended.foldl streakAfter 0

theorem failureStreak_append (l : List (Option CacheError)) (e : Option CacheError) :
    failureStreak (l ++ [e]) = streakAfter (failureStreak l) e := by
  simp [failureStreak]

namespace Breaker

/-- Whether the breaker lets a call through at `now`: closed, half open, or open with the recovery
time passed since its last failure. -/
def Admits (b : Breaker) (now : Nat) : Prop :=
  b.state = .closed ∨ b.state = .halfOpen ∨
    b.state = .open ∧ ∃ last, b.lastFailure = some last ∧ b.recoveryMs ≤ now - last

/-- What every breaker of a tier built with `threshold` keeps: the threshold, at least one and a
`u32`; the breaker closed exactly while its failures are under it; and a failure on record
whenever it is open. -/
structure Sound (threshold : Nat) (b : Breaker) : Prop where
  threshold_eq : b.threshold = threshold
  threshold_pos : 0 < threshold
  threshold_le : threshold ≤ u32Max
  closed_iff : b.state = .closed ↔ b.failures < threshold
  failed_of_open : b.state = .open → b.lastFailure.isSome

variable {b : Breaker} {threshold now : Nat}

@[simp] theorem success_state : b.success.state = .closed := rfl
@[simp] theorem success_failures : b.success.failures = 0 := rfl
@[simp] theorem success_trips : b.success.trips = b.trips := rfl
@[simp] theorem success_threshold : b.success.threshold = b.threshold := rfl
@[simp] theorem success_lastFailure : b.success.lastFailure = b.lastFailure := rfl
@[simp] theorem success_recoveryMs : b.success.recoveryMs = b.recoveryMs := rfl

-- A failure records its count and its time; only the state and the trips depend on the state.
theorem failure_eq (b : Breaker) (now : Nat) : ∃ state trips, b.failure now =
    { b with failures := min (b.failures + 1) u32Max, lastFailure := some now, state, trips } := by
  unfold failure
  dsimp only
  split
  · split
    · exact ⟨_, _, rfl⟩
    · exact ⟨b.state, b.trips, rfl⟩
  · exact ⟨_, _, rfl⟩
  · exact ⟨b.state, b.trips, rfl⟩

@[simp] theorem failure_failures : (b.failure now).failures = min (b.failures + 1) u32Max := by
  obtain ⟨_, _, h⟩ := failure_eq b now
  rw [h]

@[simp] theorem failure_threshold : (b.failure now).threshold = b.threshold := by
  obtain ⟨_, _, h⟩ := failure_eq b now
  rw [h]

@[simp] theorem failure_lastFailure : (b.failure now).lastFailure = some now := by
  obtain ⟨_, _, h⟩ := failure_eq b now
  rw [h]

@[simp] theorem failure_recoveryMs : (b.failure now).recoveryMs = b.recoveryMs := by
  obtain ⟨_, _, h⟩ := failure_eq b now
  rw [h]

/-- A failure of a closed breaker trips it once the count reaches the threshold. -/
theorem failure_of_closed (now : Nat) (hs : b.state = .closed) :
    (b.failure now).state = (if b.threshold ≤ min (b.failures + 1) u32Max then .open else .closed) ∧
      (b.failure now).trips =
        (if b.threshold ≤ min (b.failures + 1) u32Max then b.trips + 1 else b.trips) := by
  simp only [failure, hs]
  split <;> simp_all

/-- A failed trial call trips the breaker again. -/
theorem failure_of_halfOpen (now : Nat) (hs : b.state = .halfOpen) :
    (b.failure now).state = .open ∧ (b.failure now).trips = b.trips + 1 := by
  simp [failure, hs]

/-- How a permit goes: a closed or half-open breaker admits as it is, an open one either turns
half open and admits, or refuses and stays as it is. -/
theorem permits_cases (b : Breaker) (now : Nat) :
    b.permits now = (true, b) ∧ b.state ≠ .open ∨
      b.permits now = (true, { b with state := .halfOpen }) ∧ b.state = .open ∨
      b.permits now = (false, b) := by
  unfold permits
  cases hs : b.state with
  | closed => simp
  | halfOpen => simp
  | «open» =>
    simp only
    cases hl : b.lastFailure with
    | none => simp
    | some last => by_cases h : b.recoveryMs ≤ now - last <;> simp [h]

theorem permits_fst_iff (hb : b.state = .open → b.lastFailure.isSome) :
    (b.permits now).1 = true ↔ b.Admits now := by
  unfold permits Admits
  cases hs : b.state with
  | closed => simp
  | halfOpen => simp
  | «open» =>
    obtain ⟨last, hl⟩ := Option.isSome_iff_exists.1 (hb hs)
    by_cases h : b.recoveryMs ≤ now - last <;> simp [hl, h]

theorem permits_state_ne_open (h : (b.permits now).1 = true) : (b.permits now).2.state ≠ .open := by
  rcases permits_cases b now with ⟨hp, hs⟩ | ⟨hp, -⟩ | hp <;> simp_all

@[simp] theorem permits_failures : (b.permits now).2.failures = b.failures := by
  rcases permits_cases b now with ⟨hp, -⟩ | ⟨hp, -⟩ | hp <;> simp [hp]

@[simp] theorem permits_trips : (b.permits now).2.trips = b.trips := by
  rcases permits_cases b now with ⟨hp, -⟩ | ⟨hp, -⟩ | hp <;> simp [hp]

@[simp] theorem permits_recoveryMs : (b.permits now).2.recoveryMs = b.recoveryMs := by
  rcases permits_cases b now with ⟨hp, -⟩ | ⟨hp, -⟩ | hp <;> simp [hp]

/-- With no recovery time, a breaker with its failure on record admits every call. -/
theorem permits_of_recovery_zero (now : Nat) (h : b.recoveryMs = 0) (hb : b.state = .open → b.lastFailure.isSome) :
    (b.permits now).1 = true := by
  rw [permits_fst_iff hb]
  cases hs : b.state with
  | closed => exact .inl hs
  | halfOpen => exact .inr (.inl hs)
  | «open» =>
    obtain ⟨last, hl⟩ := Option.isSome_iff_exists.1 (hb hs)
    exact .inr (.inr ⟨hs, last, hl, by omega⟩)

-- A permit moves the state at most from open to half open.
theorem permits_edge (h : b.state ≠ (b.permits now).2.state) :
    BreakerState.Edge b.state (b.permits now).2.state := by
  rcases permits_cases b now with ⟨hp, -⟩ | ⟨hp, hs⟩ | hp <;> simp only [hp] at h ⊢
  · exact absurd rfl h
  · rw [hs]; exact .probe
  · exact absurd rfl h

/-- The breaker after a call it let through ended: `none` for a success, else the error. -/
def book (b : Breaker) (now : Nat) : Option CacheError → Breaker
  | none => b.success
  | some e => if e.isTransient then b.failure now else b.success

@[simp] theorem book_recoveryMs (e : Option CacheError) : (b.book now e).recoveryMs = b.recoveryMs := by
  cases e with
  | none => rfl
  | some e => by_cases ht : e.isTransient <;> simp [book, ht]

/-- A failure count that is the saturated streak stays so after the call. -/
theorem book_failures {s : Nat} (h : b.failures = min s u32Max) (e : Option CacheError) :
    (b.book now e).failures = min (streakAfter s e) u32Max := by
  cases e with
  | none => simp [book, streakAfter]
  | some e =>
    by_cases ht : e.isTransient
    · simp only [book, ht, if_true, failure_failures, streakAfter, h]
      omega
    · simp [book, streakAfter, ht]

/-- A call that ends adds a trip exactly when it leaves the breaker open. -/
theorem book_trips (hne : b.state ≠ .open) (e : Option CacheError) :
    (b.book now e).trips = b.trips + if (b.book now e).state = .open then 1 else 0 := by
  cases e with
  | none => simp [book]
  | some e =>
    by_cases ht : e.isTransient
    · simp only [book, ht, if_true]
      cases hs : b.state with
      | closed =>
        obtain ⟨hst, htr⟩ := failure_of_closed now hs
        rw [hst, htr]
        split <;> simp
      | halfOpen =>
        obtain ⟨hst, htr⟩ := failure_of_halfOpen now hs
        simp [hst, htr]
      | «open» => exact absurd hs hne
    · simp [book, ht]

/-- The end of a call moves a closed or half-open breaker only along an edge. -/
theorem book_edge (hne : b.state ≠ .open) (e : Option CacheError)
    (h : b.state ≠ (b.book now e).state) : BreakerState.Edge b.state (b.book now e).state := by
  -- a success closes the breaker, which from half open is an edge
  have hsuccess : b.state ≠ .closed → BreakerState.Edge b.state .closed := by
    intro hc
    cases hs : b.state with
    | closed => exact absurd hs hc
    | halfOpen => exact .recover
    | «open» => exact absurd hs hne
  cases e with
  | none => simpa [book] using hsuccess (by simpa [book] using h)
  | some e =>
    by_cases ht : e.isTransient
    · simp only [book, ht, if_true] at h ⊢
      cases hs : b.state with
      | closed =>
        obtain ⟨hst, -⟩ := failure_of_closed now hs
        rw [hs, hst] at h
        rw [hst]
        split
        · exact .trip
        · simp_all
      | halfOpen =>
        rw [(failure_of_halfOpen now hs).1]
        exact .retrip
      | «open» => exact absurd hs hne
    · simpa [book, ht] using hsuccess (by simpa [book, ht] using h)

/-- A failure of an open breaker leaves it open, with no new trip. -/
theorem failure_of_open (now : Nat) (hs : b.state = .open) :
    (b.failure now).state = .open ∧ (b.failure now).trips = b.trips := by
  simp [failure, hs]

theorem trips_le_failure : b.trips ≤ (b.failure now).trips := by
  cases hs : b.state with
  | closed =>
    rw [(failure_of_closed now hs).2]
    split <;> omega
  | halfOpen => simp [(failure_of_halfOpen now hs).2]
  | «open» => simp [(failure_of_open now hs).2]

-- A failure leaves the breaker open only if it was open already, or by a new trip.
theorem open_after_failure (h : (b.failure now).state = .open) :
    b.state = .open ∧ (b.failure now).trips = b.trips ∨ (b.failure now).trips = b.trips + 1 := by
  cases hs : b.state with
  | closed =>
    obtain ⟨hst, htr⟩ := failure_of_closed now hs
    rw [hst] at h
    rw [htr]
    split at h
    · exact .inr (if_pos ‹_›)
    · cases h
  | halfOpen => exact .inr (failure_of_halfOpen now hs).2
  | «open» => exact .inl ⟨rfl, (failure_of_open now hs).2⟩

/-- The end of a call books a success or a failure. -/
theorem book_eq (b : Breaker) (now : Nat) (e : Option CacheError) :
    b.book now e = b.success ∨ b.book now e = b.failure now := by
  cases e with
  | none => exact .inl rfl
  | some e => by_cases ht : e.isTransient <;> simp [book, ht]

theorem trips_le_book (e : Option CacheError) : b.trips ≤ (b.book now e).trips := by
  rcases book_eq b now e with h | h <;> rw [h]
  · simp
  · exact trips_le_failure

-- The end of a call leaves the breaker open only if it was open already, or by a new trip.
theorem open_after_book {e : Option CacheError} (h : (b.book now e).state = .open) :
    b.state = .open ∧ (b.book now e).trips = b.trips ∨ (b.book now e).trips = b.trips + 1 := by
  rcases book_eq b now e with hb | hb <;> rw [hb] at h ⊢
  · simp at h
  · exact open_after_failure h

theorem book_failed_of_open {e : Option CacheError} (h : (b.book now e).state = .open) :
    (b.book now e).lastFailure.isSome := by
  rcases book_eq b now e with hb | hb <;> rw [hb] at h ⊢
  · simp at h
  · simp

/-- The end of a call leaves an open breaker open, or closes it, and adds no trip. -/
theorem book_of_open (hs : b.state = .open) (e : Option CacheError) :
    ((b.book now e).state = .open ∨ (b.book now e).state = .closed) ∧
      (b.book now e).trips = b.trips := by
  rcases book_eq b now e with hb | hb <;> rw [hb]
  · simp
  · exact ⟨.inl (failure_of_open now hs).1, (failure_of_open now hs).2⟩

namespace Sound

variable (hb : b.Sound threshold)
include hb

theorem permits (now : Nat) : (b.permits now).2.Sound threshold := by
  rcases permits_cases b now with ⟨h, -⟩ | ⟨h, hs⟩ | h <;> rw [h]
  · exact hb
  · exact ⟨hb.threshold_eq, hb.threshold_pos, hb.threshold_le,
      by simpa [hs] using hb.closed_iff, by simp⟩
  · exact hb

theorem success : b.success.Sound threshold :=
  ⟨hb.threshold_eq, hb.threshold_pos, hb.threshold_le, by simp [hb.threshold_pos], by simp⟩

-- A breaker that is not closed has reached the threshold, so one more failure keeps it there.
theorem failure (hne : b.state ≠ .open) (now : Nat) : (b.failure now).Sound threshold := by
  have hthr := hb.threshold_eq
  refine ⟨by simp [hthr], hb.threshold_pos, hb.threshold_le, ?_, by simp⟩
  cases hs : b.state with
  | closed =>
    rw [(failure_of_closed now hs).1, failure_failures]
    split
    · next htrip => exact iff_of_false (by decide) (by omega)
    · next hstay => exact iff_of_true rfl (by omega)
  | halfOpen =>
    have hreached : threshold ≤ b.failures := by
      have := hb.closed_iff
      simp_all
    have hle := hb.threshold_le
    rw [(failure_of_halfOpen now hs).1, failure_failures]
    simp only [u32Max, reduceCtorEq, false_iff, Nat.not_lt] at hle ⊢
    omega
  | «open» => exact absurd hs hne

theorem book (hne : b.state ≠ .open) (now : Nat) (e : Option CacheError) :
    (b.book now e).Sound threshold := by
  cases e with
  | none => exact hb.success
  | some e =>
    by_cases ht : e.isTransient
    · simpa [Breaker.book, ht] using hb.failure hne now
    · simpa [Breaker.book, ht] using hb.success

end Sound

end Breaker

/-! ## Runs -/

/-- One event of a sequential run of the distributed tier: the clock moves on, or a call starts.
A call the breaker lets through ends `ms` later as the backend decides: with the store it leaves
and a reply, or with an error. -/
inductive TierEvent where
  | advance (ms : Nat)
  | call (c : BackendCall) (ms : Nat) (result : Except CacheError (Backend × BackendReply))

/-- A sequential run of the distributed tier so far: the tier, the counters and the clock, with
the breaker's history: each move of its state, oldest first, and how each call that got through
ended (`none` for a success). -/
structure GuardedRun where
  tier : DistributedTier
  metrics : Metrics
  now : Nat
  moves : List (BreakerState × BreakerState) := []
  ended : List (Option CacheError) := []

/-- The error a call ended with, if any. -/
def endedWith : Except CacheError (Backend × BackendReply) → Option CacheError
  | .ok _ => none
  | .error e => some e

namespace DistributedTier

variable {d : DistributedTier} {c : BackendCall} {now : Nat}

theorem start_breaker (d : DistributedTier) (c : BackendCall) (now : Nat) :
    (d.start c now).1.breaker = (d.breaker.permits now).2 := by
  rcases Breaker.permits_cases d.breaker now with ⟨h, -⟩ | ⟨h, -⟩ | h <;> simp [start, h]

theorem start_isSome (d : DistributedTier) (c : BackendCall) (now : Nat) :
    (d.start c now).2.isSome = (d.breaker.permits now).1 := by
  rcases Breaker.permits_cases d.breaker now with ⟨h, -⟩ | ⟨h, -⟩ | h <;> simp [start, h]

/-- A refused call leaves the tier as it was. -/
theorem start_of_refused (h : (d.breaker.permits now).1 = false) : d.start c now = (d, none) := by
  rcases Breaker.permits_cases d.breaker now with ⟨hp, -⟩ | ⟨hp, -⟩ | hp <;> simp_all [start]

theorem settle_breaker (d : DistributedTier) (m : Metrics) (r : Except CacheError (Backend × BackendReply))
    (now : Nat) : (d.settle m r now).1.breaker = d.breaker.book now (endedWith r) := by
  cases r <;> rfl

theorem settle_errors (d : DistributedTier) (m : Metrics) (r : Except CacheError (Backend × BackendReply))
    (now : Nat) : (d.settle m r now).2.1.errors = m.errors + if (endedWith r).isSome then 1 else 0 := by
  cases r <;> rfl

end DistributedTier

namespace GuardedRun

/-- A new tier over an empty backend, at time zero, with the given counters. -/
def fresh (threshold recoverySecs timeoutMs : Nat) (m : Metrics) : GuardedRun :=
  { tier := DistributedTier.create threshold recoverySecs timeoutMs, metrics := m, now := 0 }

/-- A call at the run's time: refused by the breaker, it answers `CircuitOpen`; let through, it
ends `ms` later with `result`, which the breaker and the counters book. -/
def call (r : GuardedRun) (c : BackendCall) (ms : Nat)
    (result : Except CacheError (Backend × BackendReply)) : Except CacheError BackendReply × GuardedRun :=
  match r.tier.start c r.now with
  | (d, none) => (.error .circuitOpen, { r with tier := d })
  | (d, some _) =>
    let now := r.now + ms
    let (d', m, answer) := d.settle r.metrics result now
    (answer, { tier := d', metrics := m, now,
               moves := r.moves ++ [(r.tier.breaker.state, d.breaker.state), (d.breaker.state, d'.breaker.state)],
               ended := r.ended ++ [endedWith result] })

/-- One event of a run. -/
def step (r : GuardedRun) : TierEvent → GuardedRun
  | .advance ms => { r with now := r.now + ms }
  | .call c ms result => (r.call c ms result).2

/-- The run after a sequence of events. -/
def replay (r : GuardedRun) (events : List TierEvent) : GuardedRun := events.foldl step r

/-- What a run from a new tier with counters `m₀` keeps: a sound breaker whose failure count is
the saturated streak, whose trips are the entries into the open state recorded in its moves,
every move along an edge, and one error counted per failed call. -/
structure Wf (threshold : Nat) (m₀ : Metrics) (r : GuardedRun) : Prop where
  sound : r.tier.breaker.Sound threshold
  failures_eq : r.tier.breaker.failures = min (failureStreak r.ended) u32Max
  trips_eq : r.tier.breaker.trips = r.moves.countP fun p => p.1 != .open && p.2 == .open
  errors_eq : r.metrics.errors = m₀.errors + r.ended.countP Option.isSome
  along : ∀ p ∈ r.moves, p.1 ≠ p.2 → BreakerState.Edge p.1 p.2

end GuardedRun

namespace GuardedRun

variable {threshold : Nat} {m₀ : Metrics} {r : GuardedRun} {c : BackendCall} {ms : Nat}
  {result : Except CacheError (Backend × BackendReply)}

/-- A refused call answers `CircuitOpen` and leaves the run as it was. -/
theorem call_of_refused (h : (r.tier.breaker.permits r.now).1 = false) :
    r.call c ms result = (.error .circuitOpen, r) := by
  simp [call, DistributedTier.start_of_refused h]

/-- A call let through ends `ms` later: the breaker books how it ended, a failure counts an error,
and the history records the breaker's two moves and the call's end. -/
theorem call_of_admitted (c : BackendCall) (ms : Nat) (result : Except CacheError (Backend × BackendReply))
    (h : (r.tier.breaker.permits r.now).1 = true) :
    (r.call c ms result).2.tier.breaker =
        (r.tier.breaker.permits r.now).2.book (r.now + ms) (endedWith result) ∧
      (r.call c ms result).2.metrics.errors =
        r.metrics.errors + (if (endedWith result).isSome then 1 else 0) ∧
      (r.call c ms result).2.moves = r.moves ++
        [(r.tier.breaker.state, (r.tier.breaker.permits r.now).2.state),
         ((r.tier.breaker.permits r.now).2.state, (r.call c ms result).2.tier.breaker.state)] ∧
      (r.call c ms result).2.ended = r.ended ++ [endedWith result] := by
  have hsome := DistributedTier.start_isSome r.tier c r.now
  have hbrk := DistributedTier.start_breaker r.tier c r.now
  unfold call
  rcases hs : r.tier.start c r.now with ⟨d, _ | a⟩
  · simp_all
  · simp only [hs] at hbrk
    simp [DistributedTier.settle_breaker, DistributedTier.settle_errors, hbrk]

theorem wf_fresh (hthreshold : threshold ≤ u32Max) (recoverySecs timeoutMs : Nat) (m₀ : Metrics) :
    (fresh threshold recoverySecs timeoutMs m₀).Wf (max threshold 1) m₀ := by
  have hpos : 0 < max threshold 1 := Nat.lt_of_lt_of_le Nat.zero_lt_one (Nat.le_max_right threshold 1)
  have hle : max threshold 1 ≤ u32Max := by
    simp only [u32Max] at hthreshold ⊢
    omega
  refine ⟨⟨rfl, hpos, hle, ?_, ?_⟩, rfl, rfl, rfl, by simp [fresh]⟩
  · exact iff_of_true rfl hpos
  · simp [fresh, DistributedTier.create, Breaker.create]

theorem Wf.call (hw : r.Wf threshold m₀) (c : BackendCall) (ms : Nat)
    (result : Except CacheError (Backend × BackendReply)) : (r.call c ms result).2.Wf threshold m₀ := by
  cases h : (r.tier.breaker.permits r.now).1
  · rw [call_of_refused h]
    exact hw
  · obtain ⟨hbrk, herr, hmoves, hended⟩ := call_of_admitted c ms result h
    have hne := Breaker.permits_state_ne_open h
    refine ⟨?_, ?_, ?_, ?_, ?_⟩
    · rw [hbrk]
      exact (hw.sound.permits r.now).book hne _ _
    · rw [hbrk, hended, failureStreak_append]
      exact Breaker.book_failures (by rw [Breaker.permits_failures]; exact hw.failures_eq) _
    · -- the permit never enters the open state; the end of the call does when it trips
      rw [hmoves, List.countP_append, ← hw.trips_eq, hbrk, Breaker.book_trips hne,
        Breaker.permits_trips]
      simp [hne]
    · rw [herr, hended, List.countP_append, hw.errors_eq]
      cases endedWith result with
      | none => simp
      | some e => simp [Nat.add_assoc]
    · intro p hp
      rw [hmoves] at hp
      rcases List.mem_append.1 hp with hp | hp
      · exact hw.along p hp
      · simp only [List.mem_cons, List.not_mem_nil, or_false] at hp
        rcases hp with rfl | rfl
        · exact Breaker.permits_edge
        · rw [hbrk]
          exact Breaker.book_edge hne _

theorem call_recoveryMs (r : GuardedRun) (c : BackendCall) (ms : Nat)
    (result : Except CacheError (Backend × BackendReply)) :
    (r.call c ms result).2.tier.breaker.recoveryMs = r.tier.breaker.recoveryMs := by
  cases h : (r.tier.breaker.permits r.now).1
  · rw [call_of_refused h]
  · rw [(call_of_admitted c ms result h).1, Breaker.book_recoveryMs, Breaker.permits_recoveryMs]

theorem replay_append_single (r : GuardedRun) (events : List TierEvent) (e : TierEvent) :
    r.replay (events ++ [e]) = (r.replay events).step e := by
  simp [replay]

/-- A call of the in-process tier is a call event whose backend takes the call's wait and ends as
the in-process backend decides. -/
theorem guarded_eq_call (r : GuardedRun) (c : BackendCall) :
    ∃ ms result, r.tier.guarded r.metrics c r.now =
      ((r.call c ms result).2.tier, (r.call c ms result).2.metrics, (r.call c ms result).2.now,
        (r.call c ms result).1) := by
  unfold DistributedTier.guarded call
  rcases hs : r.tier.start c r.now with ⟨d, _ | a⟩
  · exact ⟨0, .error .circuitOpen, by simp⟩
  · exact ⟨a.waitMs.getD 0, d.outcome a (r.now + a.waitMs.getD 0), by simp [DistributedTier.complete]⟩

theorem Wf.step (hw : r.Wf threshold m₀) : ∀ e : TierEvent, (r.step e).Wf threshold m₀
  | .advance _ => { hw with }
  | .call c ms result => hw.call c ms result

theorem Wf.replay (hw : r.Wf threshold m₀) (events : List TierEvent) :
    (r.replay events).Wf threshold m₀ := by
  induction events generalizing r with
  | nil => exact hw
  | cons e events ih => exact ih (hw.step e)

end GuardedRun

/-- Along every sequential run of the distributed tier from a new tier, whatever its backend
answers: the breaker is closed exactly while its failure count is under the threshold (at least
one); the count is the number of transient failures since the last success or answered error,
capped at the `u32` ceiling; a call gets through exactly when the breaker is closed, half open,
or open with the recovery time passed since its last failure, in which case it first turns half
open, and a refused call answers `CircuitOpen` and changes nothing; the trips are the entries into
the open state; each call that got through and failed adds one error; and the state moves only
closed to open, open to half open, half open to closed, and half open to open. -/
theorem guarded_run_breaker_bookkeeping (threshold recoverySecs timeoutMs : Nat)
    (hthreshold : threshold ≤ u32Max) (m₀ : Metrics) (events : List TierEvent) :
    let r := (GuardedRun.fresh threshold recoverySecs timeoutMs m₀).replay events
    let b := r.tier.breaker
    (b.state = .closed ↔ b.failures < max threshold 1) ∧
    b.failures = min (failureStreak r.ended) u32Max ∧
    (∀ c ms result, ((r.tier.start c r.now).2.isSome ↔ b.Admits r.now) ∧
      (b.state = .open → b.Admits r.now → (r.tier.start c r.now).1.breaker.state = .halfOpen) ∧
      (¬ b.Admits r.now → r.call c ms result = (.error .circuitOpen, r))) ∧
    b.trips = r.moves.countP (fun p => p.1 != .open && p.2 == .open) ∧
    r.metrics.errors = m₀.errors + r.ended.countP Option.isSome ∧
    ∀ p ∈ r.moves, p.1 ≠ p.2 → BreakerState.Edge p.1 p.2 := by
  intro r b
  have hw : r.Wf (max threshold 1) m₀ := (GuardedRun.wf_fresh hthreshold recoverySecs timeoutMs m₀).replay events
  have hadmits := @Breaker.permits_fst_iff b r.now hw.sound.failed_of_open
  refine ⟨hw.sound.closed_iff, hw.failures_eq, fun c ms result => ⟨?_, ?_, ?_⟩, hw.trips_eq,
    hw.errors_eq, hw.along⟩
  · rw [DistributedTier.start_isSome]
    exact hadmits
  · intro hopen hadm
    rw [DistributedTier.start_breaker]
    rcases Breaker.permits_cases b r.now with ⟨-, hs⟩ | ⟨hp, -⟩ | hp
    · exact absurd hopen hs
    · simp [b, hp]
    · simp [b, hp] at hadmits
      exact absurd hadm hadmits
  · intro hadm
    exact GuardedRun.call_of_refused (Bool.eq_false_iff.2 fun h => hadm (hadmits.1 h))

-- Three failed calls trip a breaker of threshold three.
theorem breaker_bookkeeping_after_three_failures :
    let down := TierEvent.call .ping 0 (.error (.backend "injected failure"))
    3 ≤ u32Max ∧
    let r := (GuardedRun.fresh 3 30 500 {}).replay [down, down, down]
    let b := r.tier.breaker
    (b.state = .closed ↔ b.failures < max 3 1) ∧
    b.failures = min (failureStreak r.ended) u32Max ∧
    (∀ c ms result, ((r.tier.start c r.now).2.isSome ↔ b.Admits r.now) ∧
      (b.state = .open → b.Admits r.now → (r.tier.start c r.now).1.breaker.state = .halfOpen) ∧
      (¬ b.Admits r.now → r.call c ms result = (.error .circuitOpen, r))) ∧
    b.trips = r.moves.countP (fun p => p.1 != .open && p.2 == .open) ∧
    r.metrics.errors = (({} : Metrics).errors) + r.ended.countP Option.isSome ∧
    ∀ p ∈ r.moves, p.1 ≠ p.2 → BreakerState.Edge p.1 p.2 :=
  ⟨by decide, guarded_run_breaker_bookkeeping 3 30 500 (by decide) {} _⟩

/-! ## The count saturates -/

namespace GuardedRun

/-- `n` calls in a row while the backend is down, on a breaker of threshold five with no recovery
time. -/
def downRun (n : Nat) : GuardedRun :=
  (fresh 5 0 500 {}).replay (List.replicate n (.call .ping 0 (.error (.backend "injected failure"))))

/-- Every call of a run against a down backend with no recovery time gets through and fails. -/
theorem downRun_ended (n : Nat) :
    (downRun n).Wf (max 5 1) {} ∧ (downRun n).tier.breaker.recoveryMs = 0 ∧
      (downRun n).ended = List.replicate n (some (.backend "injected failure")) := by
  induction n with
  | zero => exact ⟨wf_fresh (by decide) 0 500 {}, rfl, rfl⟩
  | succ n ih =>
    obtain ⟨hw, hrec, hended⟩ := ih
    have hstep : downRun (n + 1) =
        (downRun n).step (.call .ping 0 (.error (.backend "injected failure"))) := by
      rw [downRun, List.replicate_succ', replay_append_single, ← downRun]
    have hadm := Breaker.permits_of_recovery_zero (downRun n).now hrec hw.sound.failed_of_open
    rw [hstep]
    refine ⟨hw.step _, by simp [step, call_recoveryMs, hrec], ?_⟩
    simp [step, (call_of_admitted _ _ _ hadm).2.2.2, hended, endedWith, List.replicate_succ']

end GuardedRun

theorem failureStreak_replicate (n : Nat) (e : CacheError) (he : e.isTransient = true) :
    failureStreak (List.replicate n (some e)) = n := by
  induction n with
  | zero => rfl
  | succ n ih => rw [List.replicate_succ', failureStreak_append, ih, streakAfter, if_pos he]

/-- The failure count saturates: after 2³² calls fail in a row it stays at the `u32` ceiling, one
short of the number of failures. -/
theorem failure_count_saturates :
    (GuardedRun.downRun 4294967296).tier.breaker.failures ≠
      failureStreak (GuardedRun.downRun 4294967296).ended := by
  obtain ⟨hw, -, hended⟩ := GuardedRun.downRun_ended 4294967296
  rw [hw.failures_eq, hended, failureStreak_replicate 4294967296 (.backend "injected failure") rfl]
  decide

end TierCache
