import TierCache.Proofs.Interleaving
import TierCache.Service.Lifecycle
import TierCache.Proofs.BreakerRun
import TierCache.Frame.Lz4Compress

/-!
# Calls of the distributed tier that overlap

A success closes the breaker whatever the calls in between did, so a call admitted before the
breaker opened can close it.

Main statements: `breaker_moves_under_overlapping_calls` and `late_success_closes_open_breaker`.
-/

namespace TierCache

/-! ## Runs whose calls overlap -/

/-- One event of a run of the distributed tier whose calls overlap: the clock moves on, a call
starts at the run's time, or the `i`-th call still in flight ends as the backend decides, with
the store it leaves and a reply, or with an error. -/
inductive OverlapEvent where
  | advance (ms : Nat)
  | start (c : BackendCall)
  | finish (i : Nat) (result : Except CacheError (Backend × BackendReply))

/-- A call the breaker let through and that has not ended, with the times the breaker had opened
when it got through. -/
structure InFlightCall where
  admitted : DistributedTier.Admitted
  trips : Nat

/-- A run of the distributed tier whose calls overlap: the tier, the counters, the clock and the
calls in flight, oldest first. -/
structure OverlapRun where
  tier : DistributedTier
  metrics : Metrics
  now : Nat
  inFlight : List InFlightCall := []

namespace OverlapRun

/-- A new tier over an empty backend, at time zero, with the given counters and no call in
flight. -/
def fresh (threshold recoverySecs timeoutMs : Nat) (m : Metrics) : OverlapRun :=
  { tier := DistributedTier.create threshold recoverySecs timeoutMs, metrics := m, now := 0 }

/-- One event of a run. A call starts as a call of the tier does: the breaker refuses it, or lets
it through and it joins the calls in flight. A call ends as a call of the tier does, booked by
the breaker and the counters at the run's time, whatever happened since it started; the end of a
call that is not in flight changes nothing. -/
def step (r : OverlapRun) : OverlapEvent → OverlapRun
  | .advance ms => { r with now := r.now + ms }
  | .start c =>
    match r.tier.start c r.now with
    | (d, none) => { r with tier := d }
    | (d, some a) => { r with tier := d, inFlight := r.inFlight ++ [⟨a, r.tier.breaker.trips⟩] }
  | .finish i result =>
    match r.inFlight[i]? with
    | none => r
    | some _ =>
      let settled := r.tier.settle r.metrics result r.now
      { r with tier := settled.1, metrics := settled.2.1, inFlight := r.inFlight.eraseIdx i }

/-- The run after a sequence of events. -/
def replay (r : OverlapRun) (events : List OverlapEvent) : OverlapRun := events.foldl step r

/-- What every run from a new tier keeps: an open breaker has a failure on record, and every call
in flight got through when the breaker had opened no more times than it has now, and fewer while
it is open: an open breaker opened after every call in flight got through. -/
structure Wf (r : OverlapRun) : Prop where
  failed_of_open : r.tier.breaker.state = .open → r.tier.breaker.lastFailure.isSome
  admitted_le : ∀ call ∈ r.inFlight, call.trips ≤ r.tier.breaker.trips
  admitted_lt : r.tier.breaker.state = .open → ∀ call ∈ r.inFlight, call.trips < r.tier.breaker.trips

variable {r : OverlapRun} {c : BackendCall} {i : Nat} {result : Except CacheError (Backend × BackendReply)}
  {call : InFlightCall}

/-- A refused call changes nothing. -/
theorem step_start_of_refused (h : (r.tier.breaker.permits r.now).1 = false) : r.step (.start c) = r := by
  simp [step, DistributedTier.start_of_refused h]

/-- A call let through moves the breaker as its permit does and joins the calls in flight, tagged
with the breaker's trips. -/
theorem step_start_of_admitted (h : (r.tier.breaker.permits r.now).1 = true) :
    (r.step (.start c)).tier.breaker = (r.tier.breaker.permits r.now).2 ∧
      ∃ a, (r.step (.start c)).inFlight = r.inFlight ++ [⟨a, r.tier.breaker.trips⟩] := by
  have hsome := DistributedTier.start_isSome r.tier c r.now
  have hbrk := DistributedTier.start_breaker r.tier c r.now
  rcases hs : r.tier.start c r.now with ⟨d, _ | a⟩
  · simp_all
  · simp only [hs] at hbrk
    simp only [step, hs]
    exact ⟨hbrk, a, rfl⟩

/-- The end of a call that is not in flight changes nothing. -/
theorem step_finish_of_none (h : r.inFlight[i]? = none) : r.step (.finish i result) = r := by
  simp [step, h]

/-- A call in flight ends as the breaker books its result at the run's time, and leaves the calls
in flight. -/
theorem step_finish_of_some (result : Except CacheError (Backend × BackendReply))
    (h : r.inFlight[i]? = some call) :
    (r.step (.finish i result)).tier.breaker = r.tier.breaker.book r.now (endedWith result) ∧
      (r.step (.finish i result)).inFlight = r.inFlight.eraseIdx i := by
  simp [step, h, DistributedTier.settle_breaker]

/-- What one event does to the breaker and the calls in flight: nothing; a permit, for a call
let through and tagged with the breaker's trips; or the end of a call in flight, booked by the
breaker. -/
theorem step_cases (e : OverlapEvent) :
    (r.step e).tier.breaker = r.tier.breaker ∧ (r.step e).inFlight = r.inFlight ∨
      (∃ a, (r.tier.breaker.permits r.now).1 = true ∧
        (r.step e).tier.breaker = (r.tier.breaker.permits r.now).2 ∧
        (r.step e).inFlight = r.inFlight ++ [⟨a, r.tier.breaker.trips⟩]) ∨
      ∃ i result call, e = .finish i result ∧ r.inFlight[i]? = some call ∧
        (r.step e).tier.breaker = r.tier.breaker.book r.now (endedWith result) ∧
        (r.step e).inFlight = r.inFlight.eraseIdx i := by
  cases e with
  | advance ms => exact .inl ⟨rfl, rfl⟩
  | start c =>
    cases h : (r.tier.breaker.permits r.now).1
    · rw [step_start_of_refused h]
      exact .inl ⟨rfl, rfl⟩
    · obtain ⟨hbrk, a, hflight⟩ := step_start_of_admitted (c := c) h
      exact .inr (.inl ⟨a, rfl, hbrk, hflight⟩)
  | finish i result =>
    cases hcall : r.inFlight[i]? with
    | none =>
      rw [step_finish_of_none hcall]
      exact .inl ⟨rfl, rfl⟩
    | some call =>
      obtain ⟨hbrk, hflight⟩ := step_finish_of_some result hcall
      exact .inr (.inr ⟨i, result, call, rfl, hcall, hbrk, hflight⟩)

theorem wf_fresh (threshold recoverySecs timeoutMs : Nat) (m : Metrics) :
    (fresh threshold recoverySecs timeoutMs m).Wf where
  failed_of_open h := by simp [fresh, DistributedTier.create, Breaker.create] at h
  admitted_le := by simp [fresh]
  admitted_lt := by simp [fresh]

/-- The invariant reads only the breaker and the calls in flight. -/
theorem Wf.of_eq {r' : OverlapRun} (hw : r.Wf) (hb : r'.tier.breaker = r.tier.breaker)
    (hf : r'.inFlight = r.inFlight) : r'.Wf := by
  obtain ⟨hfailed, hle, hlt⟩ := hw
  exact ⟨hb ▸ hfailed, hb ▸ hf ▸ hle, hb ▸ hf ▸ hlt⟩

-- A permit never leaves the breaker open and tags its call with the trips as they are; the end
-- of a call leaves the breaker open only if it was open, or by a new trip after every call still
-- in flight got through.
theorem Wf.step (hw : r.Wf) (e : OverlapEvent) : (r.step e).Wf := by
  rcases step_cases (r := r) e with ⟨hbrk, hflight⟩ | ⟨a, h, hbrk, hflight⟩ |
    ⟨i, result, call, -, -, hbrk, hflight⟩
  · exact hw.of_eq hbrk hflight
  · have hne := Breaker.permits_state_ne_open h
    refine ⟨?_, ?_, ?_⟩
    · rw [hbrk]
      exact fun hs => absurd hs hne
    · rw [hbrk, hflight, Breaker.permits_trips]
      intro call hcall
      rcases List.mem_append.1 hcall with hcall | hcall
      · exact hw.admitted_le call hcall
      · rw [List.mem_singleton.1 hcall]
    · rw [hbrk]
      exact fun hs => absurd hs hne
  · have hmem : ∀ c ∈ (r.step e).inFlight, c ∈ r.inFlight := fun c hc => by
      rw [hflight] at hc
      exact List.mem_of_mem_eraseIdx hc
    refine ⟨?_, ?_, ?_⟩
    · rw [hbrk]
      exact Breaker.book_failed_of_open
    · intro c hc
      rw [hbrk]
      exact Nat.le_trans (hw.admitted_le c (hmem c hc)) (Breaker.trips_le_book _)
    · intro hopen c hc
      rw [hbrk] at hopen ⊢
      rcases Breaker.open_after_book hopen with ⟨hs, htrips⟩ | htrips
      · rw [htrips]
        exact hw.admitted_lt hs c (hmem c hc)
      · rw [htrips]
        exact Nat.lt_succ_of_le (hw.admitted_le c (hmem c hc))

theorem Wf.replay (hw : r.Wf) (events : List OverlapEvent) : (r.replay events).Wf := by
  induction events generalizing r with
  | nil => exact hw
  | cons e events ih => exact ih (hw.step e)

/-- The trips grow by one exactly when an event opens the breaker. -/
theorem trips_step (e : OverlapEvent) :
    (r.step e).tier.breaker.trips = r.tier.breaker.trips +
      if r.tier.breaker.state ≠ .open ∧ (r.step e).tier.breaker.state = .open then 1 else 0 := by
  rcases step_cases (r := r) e with ⟨hbrk, -⟩ | ⟨a, h, hbrk, -⟩ | ⟨i, result, call, -, -, hbrk, -⟩
  · simp [hbrk]
  · simp [hbrk, Breaker.permits_state_ne_open h]
  · rw [hbrk]
    by_cases hs : r.tier.breaker.state = .open
    · simp [hs, (Breaker.book_of_open hs _).2]
    · simp only [hs, Breaker.book_trips hs, ne_eq, not_false_eq_true, true_and]

/-- How one event moves the breaker's state: along an edge, an open breaker turning half open
only once its recovery time has passed; or from open to closed, at the end of a call that got
through before the breaker last opened. -/
theorem Wf.moves (hw : r.Wf) (e : OverlapEvent)
    (hne : r.tier.breaker.state ≠ (r.step e).tier.breaker.state) :
    BreakerState.Edge r.tier.breaker.state (r.step e).tier.breaker.state ∧
        (r.tier.breaker.state = .open → r.tier.breaker.Admits r.now) ∨
      r.tier.breaker.state = .open ∧ (r.step e).tier.breaker.state = .closed ∧
        ∃ i result call, e = .finish i result ∧ r.inFlight[i]? = some call ∧
          call.trips < r.tier.breaker.trips := by
  rcases step_cases (r := r) e with ⟨hbrk, -⟩ | ⟨a, h, hbrk, -⟩ |
    ⟨i, result, call, he, hcall, hbrk, -⟩
  · rw [hbrk] at hne
    exact absurd rfl hne
  · rw [hbrk] at hne ⊢
    exact .inl ⟨Breaker.permits_edge hne, fun _ => (Breaker.permits_fst_iff hw.failed_of_open).1 h⟩
  · rw [hbrk] at hne ⊢
    by_cases hs : r.tier.breaker.state = .open
    · -- an open breaker is left open or closed, and every call in flight got through before it
      -- opened
      rcases (Breaker.book_of_open hs (endedWith result)).1 with hb | hb
      · exact absurd (hs.trans hb.symm) hne
      · exact .inr ⟨hs, hb, i, result, call, he, hcall,
          hw.admitted_lt hs call (List.mem_of_getElem? hcall)⟩
    · exact .inl ⟨Breaker.book_edge hs _ hne, fun h => absurd h hs⟩

end OverlapRun

/-- Along every run of the distributed tier whose calls overlap, from a new tier, whatever the
backend answers and in whatever order the calls start and end: a call gets through exactly when
the breaker is closed, half open, or open with its recovery time passed since its last failure,
and a refused call changes nothing; each event adds a trip exactly when it opens the breaker; and
each event that moves the breaker's state moves it along one of its four edges, an open breaker
turning half open only once its recovery time has passed, or from open straight to closed, by
the end of a call that got through before the breaker last opened. -/
theorem breaker_moves_under_overlapping_calls (threshold recoverySecs timeoutMs : Nat) (m₀ : Metrics)
    (events : List OverlapEvent) (e : OverlapEvent) :
    let r := (OverlapRun.fresh threshold recoverySecs timeoutMs m₀).replay events
    let b := r.tier.breaker
    let b' := (r.step e).tier.breaker
    (∀ c, ((r.tier.start c r.now).2.isSome ↔ b.Admits r.now) ∧
      (¬ b.Admits r.now → r.step (.start c) = r)) ∧
    b'.trips = b.trips + (if b.state ≠ .open ∧ b'.state = .open then 1 else 0) ∧
    (b.state ≠ b'.state →
      BreakerState.Edge b.state b'.state ∧ (b.state = .open → b.Admits r.now) ∨
        b.state = .open ∧ b'.state = .closed ∧
          ∃ i result call, e = .finish i result ∧ r.inFlight[i]? = some call ∧ call.trips < b.trips) := by
  intro r b b'
  have hw : r.Wf := (OverlapRun.wf_fresh threshold recoverySecs timeoutMs m₀).replay events
  have hadmits := @Breaker.permits_fst_iff b r.now hw.failed_of_open
  refine ⟨fun c => ⟨?_, fun hadm => ?_⟩, OverlapRun.trips_step e, hw.moves e⟩
  · rw [DistributedTier.start_isSome]
    exact hadmits
  · exact OverlapRun.step_start_of_refused (Bool.eq_false_iff.2 fun h => hadm (hadmits.1 h))

example :
    let r := (OverlapRun.fresh 1 30 500 {}).replay
      [.start .ping, .start .ping, .finish 1 (.error (.backend "down")), .advance 290]
    r.tier.breaker.state = .open ∧
      (r.step (.finish 0 (.ok ({}, .done)))).tier.breaker.state = .closed := by
  decide

/-! ## A run of the cache -/

/-- The breaker of the host's distributed tier, if there is one. -/
def Host.breaker? (h : Host) : Option Breaker := h.cache.distributed.map (·.breaker)

/-- A session in which two calls to the distributed tier overlap: a write-behind set made while
the backend answers in 300 ms, a pause that lets its job start its write, then a read made while
the backend fails within 10 ms, the failures switched off, and a flush. -/
def overlappingCalls : Act Unit := do
  Act.changeTier fun d => { d with backend := { d.backend with latency := some 300 } }
  let _ ← Act.setRaw "a" "1".toUTF8 none .writeBehind
  Fiber.giveWay
  Act.changeTier fun d => { d with backend := { d.backend with latency := some 10, failing := true } }
  let _ ← Act.getRaw "x"
  Act.changeTier fun d => { d with backend := { d.backend with failing := false } }
  Act.flush

/-- A cache whose breaker opens at the first failure, over an empty backend. -/
def quickTripHost : Host :=
  { cache := TieredCache.create .lz4 { circuitBreaker := { failureThreshold := 1 } } true }

/-- The session as it starts, before any job. -/
def overlapStart : Scene Host Unit := ⟨quickTripHost, overlappingCalls, []⟩

/-- The session's turns up to the moment the write can end: the session until it gives way, the
write's job until it waits on the backend, the session until its read waits, 10 ms, the read's
end and the flush, and the clock moved to 300 ms. -/
def overlapCues : List Scene.Cue := [.main, .fiber 0, .main, .tick 10, .main, .tick 300]

/-- With a write-behind write admitted while the breaker is closed and still waiting on the
backend, a read fails and trips the breaker. At 300 ms the breaker is open and refuses calls,
its recovery time of 30 s far off; the write then succeeds, and without any time passing the
breaker is closed and admits calls. -/
theorem late_success_closes_open_breaker :
    ∃ c c' : Scene Host Unit, Relation.ReflTransGen (Stage.Step Host.stage) overlapStart c ∧
      Stage.Step Host.stage c c' ∧ c'.state.clock = c.state.clock ∧
      c.state.breaker?.map (fun b => (b.state, (b.permits c.state.clock).1)) = some (.open, false) ∧
      c'.state.breaker?.map (fun b => (b.state, (b.permits c'.state.clock).1)) = some (.closed, true) :=
  ⟨_, _, Scene.reach_play (by decide : overlapStart.playable Host.stage 100 overlapCues = true),
    Scene.step_cue (by decide :
      (overlapStart.play Host.stage 100 overlapCues).cues Host.stage 100 (.fiber 0) = true),
    by decide, by decide, by decide⟩

end TierCache
