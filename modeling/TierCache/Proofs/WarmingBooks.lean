import TierCache.Proofs.WarmingFrame
import Mathlib.Data.Multiset.Filter
import Mathlib.Data.Multiset.Count

/-!
# The warming scheduler's books, share by share

The books balance against the shares of all the fibers (`Warmer.Books.Balanced`), and each program
of the scheduler keeps them (`Act.Safe`).
-/

namespace TierCache

/-- What a fiber holds of the scheduler's claims. -/
inductive Claim where
  | free
  /-- A dispatch between its claim of a pattern and the start of the job or the claim's return. -/
  | claiming (pattern : String)
  /-- A job of a pattern: the claim, a permit and its number among the running jobs. -/
  | task (pattern : String) (job : Nat)
  deriving DecidableEq

namespace Claim

def pattern? : Claim → Option String
  | free => none
  | claiming p => some p
  | task p _ => some p

def dispatching? : Claim → Option String
  | free => none
  | claiming p => some p
  | task _ _ => none

def task? : Claim → Option (String × Nat)
  | free => none
  | claiming _ => none
  | task p j => some (p, j)

def job? : Claim → Option Nat
  | free => none
  | claiming _ => none
  | task _ j => some j

attribute [simp] pattern?.eq_1 pattern?.eq_2 pattern?.eq_3 dispatching?.eq_1 dispatching?.eq_2
  dispatching?.eq_3 task?.eq_1 task?.eq_2 task?.eq_3 job?.eq_1 job?.eq_2 job?.eq_3

end Claim

/-- What a fiber holds of the right to drain. -/
inductive Drain where
  | absent
  | holder
  /-- A drain in progress, with the jobs it waits for. -/
  | awaiting (jobs : List Nat)
  deriving DecidableEq

namespace Drain

def awaited : Drain → List Nat
  | absent => []
  | holder => []
  | awaiting jobs => jobs

def held : Drain → Bool
  | absent => false
  | holder => true
  | awaiting _ => true

attribute [simp] awaited.eq_1 awaited.eq_2 awaited.eq_3 held.eq_1 held.eq_2 held.eq_3

end Drain

@[ext] structure Share where
  claim : Claim := .free
  drain : Drain := .absent

namespace Warmer.Books

/-- The books balance against the shares of all the fibers: each claimed pattern is held once,
each running job is held once by its task, the active count and the free permits follow the
running jobs, job numbers are fresh, and every running job is waited for by the next drain or by
one in progress. -/
structure Balanced (b : Books) (S : Multiset Share) : Prop where
  inFlight_nodup : b.inFlight.Nodup
  inFlight_eq : (b.inFlight : Multiset String) = S.filterMap (·.claim.pattern?)
  running_nodup : b.running.Nodup
  running_eq : (b.running : Multiset Nat) = S.filterMap (·.claim.job?)
  active_eq : b.active = b.running.length
  permits_add : b.permits + b.running.length = b.limit
  running_lt : ∀ j ∈ b.running, j < b.nextJob
  running_awaited : ∀ j ∈ b.running, j ∈ b.undrained ∨ ∃ o ∈ S, j ∈ o.drain.awaited

variable {b : Books} {o : Share} {M : Multiset Share} {p : String} {j : Nat}

-- Filtering out an element of a list without repeats takes it out of the multiset once.
private theorem coe_filter_ne {γ : Type} [DecidableEq γ] {l : List γ} {a : γ} {X : Multiset γ}
    (hl : l.Nodup) (h : (l : Multiset γ) = a ::ₘ X) : (↑(l.filter (· != a)) : Multiset γ) = X := by
  rw [← hl.erase_eq_filter, ← Multiset.coe_erase, h, Multiset.erase_cons_head]

-- A share whose claim is unchanged holds the same pattern and the same job.
private theorem filterMap_cons_claim {γ : Type} (f : Claim → Option γ) (o o' : Share)
    (hc : o'.claim = o.claim) :
    (o' ::ₘ M).filterMap (f ·.claim) = (o ::ₘ M).filterMap (f ·.claim) := by
  cases hf : f o.claim <;>
    simp [Multiset.filterMap_cons_none, Multiset.filterMap_cons_some, hf, hc]

theorem Balanced.claim (hb : b.Balanced (o ::ₘ M)) (ho : o.claim = .free) (hp : p ∉ b.inFlight) :
    { b with inFlight := p :: b.inFlight }.Balanced ({ o with claim := .claiming p } ::ₘ M) where
  inFlight_nodup := List.nodup_cons.2 ⟨hp, hb.inFlight_nodup⟩
  inFlight_eq := by
    have h : (↑b.inFlight : Multiset String) = M.filterMap (·.claim.pattern?) := by
      simpa [ho] using hb.inFlight_eq
    simp [← h]
  running_nodup := hb.running_nodup
  running_eq := by simpa [ho] using hb.running_eq
  active_eq := hb.active_eq
  permits_add := hb.permits_add
  running_lt := hb.running_lt
  running_awaited j hj := by simpa using hb.running_awaited j hj

theorem Balanced.release (hb : b.Balanced (o ::ₘ M)) (ho : o.claim = .claiming p) :
    { b with inFlight := b.inFlight.filter (· != p) }.Balanced ({ o with claim := .free } ::ₘ M) where
  inFlight_nodup := hb.inFlight_nodup.filter _
  inFlight_eq := by
    refine coe_filter_ne hb.inFlight_nodup ?_
    simp [hb.inFlight_eq, ho]
  running_nodup := hb.running_nodup
  running_eq := by simpa [ho] using hb.running_eq
  active_eq := hb.active_eq
  permits_add := hb.permits_add
  running_lt := hb.running_lt
  running_awaited j hj := by simpa using hb.running_awaited j hj

-- A permit taken for a claimed pattern: the claim becomes the task of a fresh job.
theorem Balanced.start (hb : b.Balanced (o ::ₘ M)) (ho : o.claim = .claiming p)
    (hpermit : b.permits ≠ 0) :
    { b with permits := b.permits - 1, nextJob := b.nextJob + 1, running := b.running ++ [b.nextJob],
             undrained := b.undrained ++ [b.nextJob], active := b.active + 1 }.Balanced
      ({ o with claim := .task p b.nextJob } ::ₘ M) where
  inFlight_nodup := hb.inFlight_nodup
  inFlight_eq := by simpa [ho] using hb.inFlight_eq
  running_nodup := by
    have hfresh : b.nextJob ∉ b.running := fun h => Nat.lt_irrefl _ (hb.running_lt _ h)
    exact hb.running_nodup.append (List.nodup_singleton _) (by simpa using hfresh)
  running_eq := by
    have h : (↑b.running : Multiset Nat) = M.filterMap (·.claim.job?) := by
      simpa [ho] using hb.running_eq
    have hperm : (↑(b.running ++ [b.nextJob]) : Multiset Nat) = ↑(b.nextJob :: b.running) :=
      Multiset.coe_eq_coe.2 (List.perm_append_singleton _ _)
    simp [hperm, ← h]
  active_eq := by simp [hb.active_eq]
  permits_add := by
    dsimp only
    simp only [List.length_append, List.length_singleton]
    have := hb.permits_add
    omega
  running_lt j hj := by
    dsimp only at hj ⊢
    rcases List.mem_append.1 hj with hj | hj
    · exact Nat.lt_succ_of_lt (hb.running_lt j hj)
    · simp at hj; omega
  running_awaited j hj := by
    dsimp only at hj ⊢
    rcases List.mem_append.1 hj with hj | hj
    · rcases hb.running_awaited j hj with h | h
      · exact .inl (List.mem_append_left _ h)
      · exact .inr (by simpa using h)
    · exact .inl (List.mem_append_right _ hj)

-- A job that ends gives back its claim, its permit and its place among the running jobs.
theorem Balanced.finish (hb : b.Balanced (o ::ₘ M)) (ho : o.claim = .task p j) :
    { b with inFlight := b.inFlight.filter (· != p), active := b.active - 1,
             permits := b.permits + 1, running := b.running.filter (· != j) }.Balanced
      ({ o with claim := .free } ::ₘ M) := by
  have hrun : (↑(b.running.filter (· != j)) : Multiset Nat) = M.filterMap (·.claim.job?) :=
    coe_filter_ne hb.running_nodup (by simp [hb.running_eq, ho])
  -- the job was running once, so one job fewer runs
  have hlen : (b.running.filter (· != j)).length + 1 = b.running.length := by
    have h₁ := congrArg Multiset.card hrun
    have h₂ := congrArg Multiset.card hb.running_eq
    simp [ho] at h₁ h₂
    omega
  exact {
    inFlight_nodup := hb.inFlight_nodup.filter _
    inFlight_eq := coe_filter_ne hb.inFlight_nodup (by simp [hb.inFlight_eq, ho])
    running_nodup := hb.running_nodup.filter _
    running_eq := by simpa using hrun
    active_eq := by dsimp only; have := hb.active_eq; omega
    permits_add := by dsimp only; have := hb.permits_add; omega
    running_lt := fun j hj => hb.running_lt j (List.mem_of_mem_filter hj)
    running_awaited := fun j hj => by
      simpa using hb.running_awaited j (List.mem_of_mem_filter hj) }

-- The claim a dispatch holds goes to the job it starts.
theorem Balanced.handOver (hb : b.Balanced (o ::ₘ M)) :
    b.Balanced ({ o with claim := .free } ::ₘ { claim := o.claim } ::ₘ M) where
  inFlight_nodup := hb.inFlight_nodup
  inFlight_eq := by
    rw [hb.inFlight_eq]
    obtain ⟨c, d⟩ := o
    cases c <;> simp
  running_nodup := hb.running_nodup
  running_eq := by
    rw [hb.running_eq]
    obtain ⟨c, d⟩ := o
    cases c <;> simp
  active_eq := hb.active_eq
  permits_add := hb.permits_add
  running_lt := hb.running_lt
  running_awaited j hj := by simpa using hb.running_awaited j hj

-- A drain takes the jobs dispatched since the last one and waits for them.
theorem Balanced.take (hb : b.Balanced (o ::ₘ M)) (ho : o.drain = .holder) :
    { b with undrained := [] }.Balanced ({ o with drain := .awaiting b.undrained } ::ₘ M) where
  inFlight_nodup := hb.inFlight_nodup
  inFlight_eq := hb.inFlight_eq.trans
    (filterMap_cons_claim Claim.pattern? o { o with drain := .awaiting b.undrained } rfl).symm
  running_nodup := hb.running_nodup
  running_eq := hb.running_eq.trans
    (filterMap_cons_claim Claim.job? o { o with drain := .awaiting b.undrained } rfl).symm
  active_eq := hb.active_eq
  permits_add := hb.permits_add
  running_lt := hb.running_lt
  running_awaited j hj := by
    refine .inr ?_
    rcases hb.running_awaited j hj with h | h
    · exact ⟨_, Multiset.mem_cons_self _ _, by simpa [Drain.awaited] using h⟩
    · simp only [Multiset.mem_cons] at h ⊢
      obtain ⟨x, rfl | hx, hj⟩ := h
      · simp [ho, Drain.awaited] at hj
      · exact ⟨x, .inr hx, hj⟩

-- A drain whose jobs have all ended holds the right to drain again.
theorem Balanced.wake {J : List Nat} (hb : b.Balanced (o ::ₘ M)) (ho : o.drain = .awaiting J)
    (hJ : ∀ j ∈ J, j ∉ b.running) : b.Balanced ({ o with drain := .holder } ::ₘ M) where
  inFlight_nodup := hb.inFlight_nodup
  inFlight_eq := hb.inFlight_eq.trans
    (filterMap_cons_claim Claim.pattern? o { o with drain := .holder } rfl).symm
  running_nodup := hb.running_nodup
  running_eq := hb.running_eq.trans
    (filterMap_cons_claim Claim.job? o { o with drain := .holder } rfl).symm
  active_eq := hb.active_eq
  permits_add := hb.permits_add
  running_lt := hb.running_lt
  running_awaited j hj := by
    rcases hb.running_awaited j hj with h | h
    · exact .inl h
    · refine .inr ?_
      simp only [Multiset.mem_cons] at h ⊢
      obtain ⟨x, rfl | hx, hjx⟩ := h
      · simp only [ho, Drain.awaited] at hjx
        exact absurd hj (hJ j hjx)
      · exact ⟨x, .inr hx, hjx⟩

variable {S T : Multiset Share}

-- Shares that hold no claim change nothing the books see.
theorem Balanced.add_quiet (hb : b.Balanced S) (hT : ∀ t ∈ T, t.claim = .free) : b.Balanced (S + T) := by
  have hnone : ∀ {γ : Type} (f : Claim → Option γ), f .free = none → T.filterMap (f ·.claim) = 0 := by
    intro γ f hf
    refine Multiset.eq_zero_of_forall_notMem fun x hx => ?_
    obtain ⟨t, ht, hx⟩ := (Multiset.mem_filterMap _ _).1 hx
    rw [hT t ht, hf] at hx
    cases hx
  exact {
    inFlight_nodup := hb.inFlight_nodup
    inFlight_eq := by rw [Multiset.filterMap_add, hb.inFlight_eq, hnone _ rfl, Multiset.add_zero]
    running_nodup := hb.running_nodup
    running_eq := by rw [Multiset.filterMap_add, hb.running_eq, hnone _ rfl, Multiset.add_zero]
    active_eq := hb.active_eq
    permits_add := hb.permits_add
    running_lt := hb.running_lt
    running_awaited := fun j hj => by
      rcases hb.running_awaited j hj with h | ⟨o, ho, hj'⟩
      · exact .inl h
      · exact .inr ⟨o, Multiset.mem_add.2 (.inl ho), hj'⟩ }

-- A running job is one the books count as running.
theorem Balanced.mem_running (hb : b.Balanced S) (ho : o ∈ S) (hj : o.claim = .task p j) :
    j ∈ b.running := by
  have hmem : j ∈ S.filterMap (·.claim.job?) := (Multiset.mem_filterMap _ _).2 ⟨o, ho, by simp [hj]⟩
  rw [← hb.running_eq] at hmem
  exact Multiset.mem_coe.1 hmem

end Warmer.Books

-- An idle scheduler's books balance against one fiber holding the right to drain.
theorem Warmer.balanced_idle {w : Warmer} (hidle : w.inFlight = [] ∧ w.running = [] ∧
      w.counters.active = 0 ∧ w.permits = max w.settings.maxConcurrentWarms 1) :
    w.books.Balanced {{ drain := .holder }} := by
  obtain ⟨hflight, hrunning, hactive, hpermits⟩ := hidle
  exact {
    inFlight_nodup := by simp [Warmer.books, hflight]
    inFlight_eq := by
      rw [← Multiset.cons_zero, Multiset.filterMap_cons_none _ _ rfl]
      simp [Warmer.books, hflight]
    running_nodup := by simp [Warmer.books, hrunning]
    running_eq := by
      rw [← Multiset.cons_zero, Multiset.filterMap_cons_none _ _ rfl]
      simp [Warmer.books, hrunning]
    active_eq := by simp [Warmer.books, hrunning, hactive]
    permits_add := by simp [Warmer.books, hrunning, hpermits]
    running_lt := by simp [Warmer.books, hrunning]
    running_awaited := by simp [Warmer.books, hrunning] }


/-! ## The books of the host -/

namespace Host

@[simp] theorem stage_takeJobs (h : Host) :
    Host.stage.takeJobs h = (h.requested, { h with requested := [] }) := rfl

@[simp] theorem stage_clock (h : Host) : Host.stage.clock h = h.clock := rfl

@[simp] theorem stage_setClock (h : Host) (t : Nat) : Host.stage.setClock h t = { h with clock := t } :=
  rfl

@[simp] theorem stage_launch (j : Job) : Host.stage.launch j = Act.launch j := rfl

/-- No job waits to start, and the scheduler's books balance against the shares. -/
def Accounted (h : Host) (S : Multiset Share) : Prop :=
  h.requested = [] ∧ ∃ w, h.warmer = some w ∧ w.books.Balanced S

end Host

/-- The share a job starts with: a warming job holds its rule's claim and its number. -/
def Job.share : Job → Share
  | .warm id r _ _ => { claim := .task r.pattern id }
  | _ => {}

/-- The fibers of a host share the warming scheduler: the books balance, a warming job starts with
its rule's claim, only warming jobs are asked for, and a fiber ends holding no claim. -/
def warmingShares : Sharing Host Job Share where
  Inv := Host.Accounted
  hold := Job.share
  Spawnable
    | .warm .. => True
    | _ => False
  Ended o := o.claim = .free

variable {α β : Type} {o o' : Share} {h : Host}

namespace Act

/-- From every state, `f` holding `o` keeps the books, and ends holding a share `Q` allows. -/
def Safe (Q : α → Share → Prop) (o : Share) (f : Act α) : Prop :=
  ∀ s, Stage.Runs Host.stage warmingShares (fun a o' _ => Q a o') o s f

variable {Q : α → Share → Prop} {f : Act α}

theorem Safe.bind {Q' : β → Share → Prop} {g : α → Act β} (hf : Safe Q o f)
    (hg : ∀ a o', Q a o' → Safe Q' o' (g a)) : Safe Q' o (f >>= g) :=
  fun s => (hf s).bind fun a o' s' hq => hg a o' hq s'

theorem safe_pure {a : α} (hq : Q a o) : Safe Q o (pure a) := fun _ => .done hq

theorem Safe.mono {Q' : α → Share → Prop} (hf : Safe Q o f) (hQ : ∀ a o', Q a o' → Q' a o') :
    Safe Q' o f :=
  fun s => (hf s).mono fun a o' _ => hQ a o'

-- A loop whose every round gives back the share it started with.
theorem Safe.forIn {γ δ : Type} {xs : List γ} {d : δ} {f : γ → δ → Act (ForInStep δ)}
    (hf : ∀ x d, Safe (fun _ o' => o' = o) o (f x d)) : Safe (fun _ o' => o' = o) o (forIn xs d f) := by
  induction xs generalizing d with
  | nil => exact safe_pure rfl
  | cons x xs ih =>
    rw [List.forIn_cons]
    refine (hf x d).bind fun step o' ho' => ?_
    subst ho'
    cases step with
    | done d => exact safe_pure rfl
    | yield d => exact ih

/-! ## The steps that move shares -/

variable {p : String} {j : Nat}

end Act

end TierCache
