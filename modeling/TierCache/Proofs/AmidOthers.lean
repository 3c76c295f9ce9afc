import TierCache.Proofs.Interleaving

/-!
# A program run amid others

`Stage.Amid R` runs a program while other fibers, wherever it waits or gives way, move the state
as `R` allows. Runs are taken apart along the program (`Amid.of_bind`, `Amid.of_forIn`), and a run
alone gives a run amid others that may only move the clock (`Amid.of_alone`).
-/

namespace TierCache

variable {σ τ α β γ : Type}

namespace Stage

variable (st : Stage σ τ)

/-- `Amid R s f a s'`: started in `s`, while the other fibers move the state by `R` wherever it
waits or gives way, `f` ends with `a` in `s'`. A wait goes on once its deadline has come or its
condition holds in the state the others left. -/
inductive Amid (R : σ → σ → Prop) : σ → Fiber σ α → α → σ → Prop
  | done {s a} : Amid R s (.done a) a s
  | read {s k a s'} : Amid R s (k s) a s' → Amid R s (.read k) a s'
  | write {s g k a s'} : Amid R (st.takeJobs (g s)).2 k a s' → Amid R s (.write g k) a s'
  | wait {s s₁ d r k a s'} : R s s₁ → (r s₁ || d.any (· ≤ st.clock s₁)) = true →
      Amid R s₁ k a s' → Amid R s (.wait d r k) a s'
  | pass {s s₁ k a s'} : R s s₁ → Amid R s₁ k a s' → Amid R s (.pass k) a s'

/-- The rounds of a loop over a list, run amid the others: each round runs from where the last one
left the state, and a round that says to stop ends the loop with its value. -/
inductive Rounds (R : σ → σ → Prop) (f : γ → β → Fiber σ (ForInStep β)) :
    σ → List γ → β → β → σ → Prop
  | nil {s b} : Rounds R f s [] b b s
  | stop {s x xs b b' s'} : Amid st R s (f x b) (.done b') s' → Rounds R f s (x :: xs) b b' s'
  | next {s x xs b b₁ b' s₁ s'} : Amid st R s (f x b) (.yield b₁) s₁ → Rounds R f s₁ xs b₁ b' s' →
      Rounds R f s (x :: xs) b b' s'

variable {st} {R : σ → σ → Prop} {s s' s'' : σ}

theorem Amid.done_iff {a b : α} : st.Amid R s (.done a) b s' ↔ b = a ∧ s' = s := by
  constructor
  · rintro ⟨⟩
    exact ⟨rfl, rfl⟩
  · rintro ⟨rfl, rfl⟩
    exact .done

theorem Amid.of_bind {f : Fiber σ α} {g : α → Fiber σ β} {b : β}
    (h : st.Amid R s (f >>= g) b s'') : ∃ a s', st.Amid R s f a s' ∧ st.Amid R s' (g a) b s'' := by
  -- the run of the bound program follows the first part step by step until it ends
  induction f generalizing s with
  | done a => exact ⟨a, s, .done, h⟩
  | read k ih =>
    cases h with
    | read h =>
      obtain ⟨a, s', h₁, h₂⟩ := ih s h
      exact ⟨a, s', .read h₁, h₂⟩
  | write g' k ih =>
    cases h with
    | write h =>
      obtain ⟨a, s', h₁, h₂⟩ := ih h
      exact ⟨a, s', .write h₁, h₂⟩
  | wait d r k ih =>
    cases h with
    | wait hR hready h =>
      obtain ⟨a, s', h₁, h₂⟩ := ih h
      exact ⟨a, s', .wait hR hready h₁, h₂⟩
  | pass k ih =>
    cases h with
    | pass hR h =>
      obtain ⟨a, s', h₁, h₂⟩ := ih h
      exact ⟨a, s', .pass hR h₁, h₂⟩

theorem Amid.bind {f : Fiber σ α} {g : α → Fiber σ β} {a : α} {b : β}
    (hf : st.Amid R s f a s') (hg : st.Amid R s' (g a) b s'') : st.Amid R s (f >>= g) b s'' := by
  induction hf with
  | done => exact hg
  | read _ ih => exact .read (ih hg)
  | write _ ih => exact .write (ih hg)
  | wait hR hready _ ih => exact .wait hR hready (ih hg)
  | pass hR _ ih => exact .pass hR (ih hg)

theorem Amid.pure_bind_iff {a : α} {g : α → Fiber σ β} {b : β} :
    st.Amid R s (pure a >>= g) b s' ↔ st.Amid R s (g a) b s' := Iff.rfl

-- A look at the state answers what it sees and changes nothing.
theorem Amid.read_done {f : σ → α} {a : α} (h : st.Amid R s (.read fun s => .done (f s)) a s') :
    a = f s ∧ s' = s := by
  cases h with
  | read h => exact Amid.done_iff.1 h

theorem Amid.modifyGet {F : σ → α × σ} {a : α} (h : st.Amid R s (Fiber.modifyGet F) a s') :
    a = (F s).1 ∧ s' = (st.takeJobs (F s).2).2 := by
  cases h with
  | read h =>
    cases h with
    | write h => exact Amid.done_iff.1 h

theorem Amid.modify {g : σ → σ} (h : st.Amid R s (Fiber.modify g) () s') :
    s' = (st.takeJobs (g s)).2 := by
  cases h with
  | write h => exact (Amid.done_iff.1 h).2

-- A change followed by more of the program: the rest runs from the changed state.
theorem Amid.modifyGet_bind {F : σ → α × σ} {g : α → Fiber σ β} {b : β}
    (h : st.Amid R s (Fiber.modifyGet F >>= g) b s') :
    st.Amid R (st.takeJobs (F s).2).2 (g (F s).1) b s' := by
  cases h with
  | read h =>
    cases h with
    | write h => exact h

theorem Amid.modify_bind {f : σ → σ} {g : Unit → Fiber σ β} {b : β}
    (h : st.Amid R s (Fiber.modify f >>= g) b s') : st.Amid R (st.takeJobs (f s)).2 (g ()) b s' := by
  cases h with
  | write h => exact h

/-- A loop over a list, run amid the others, is a run of its rounds in turn. -/
theorem Amid.of_forIn {xs : List γ} {b b' : β} {f : γ → β → Fiber σ (ForInStep β)}
    (h : st.Amid R s (forIn xs b f) b' s') : st.Rounds R f s xs b b' s' := by
  induction xs generalizing s b with
  | nil =>
    obtain ⟨rfl, rfl⟩ := Amid.done_iff.1 h
    exact .nil
  | cons x xs ih =>
    rw [List.forIn_cons] at h
    obtain ⟨step, s₁, hround, hrest⟩ := Amid.of_bind h
    cases step with
    | done b₁ =>
      obtain ⟨rfl, rfl⟩ := Amid.done_iff.1 hrest
      exact .stop hround
    | yield b₁ => exact .next hround (ih hrest)

/-- A relation that the program's own changes, the handing over of its jobs and the others' moves
all keep, and that composes, relates the state a run starts in to the state it ends in. -/
theorem Amid.keeps {T : σ → σ → Prop} (hrefl : ∀ s, T s s)
    (htrans : ∀ {s₁ s₂ s₃}, T s₁ s₂ → T s₂ s₃ → T s₁ s₃) (hR : ∀ {s s'}, R s s' → T s s')
    (hjobs : ∀ s, T s (st.takeJobs s).2) {f : Fiber σ α} {a : α} (hf : st.Within T s f)
    (h : st.Amid R s f a s') : T s s' := by
  induction h with
  | done => exact hrefl _
  | read _ ih =>
    cases hf with
    | read hf => exact ih hf
  | write _ ih =>
    cases hf with
    | write hT hf => exact htrans (htrans hT (hjobs _)) (ih hf)
  | wait hRs _ _ ih =>
    cases hf with
    | wait hf => exact htrans (hR hRs) (ih (hf _))
  | pass hRs _ ih =>
    cases hf with
    | pass hf => exact htrans (hR hRs) (ih (hf _))

/-! ## Runs alone, computed -/

variable (st)

/-- Runs a fiber alone for at most `n` steps: a wait whose deadline has not come makes the clock
jump to it, a give-way goes on at once, and a wait on a condition alone that does not hold is
stuck. The answer and the last state, once the fiber ends. -/
def alone : Nat → σ → Fiber σ α → Option (α × σ)
  | 0, _, _ => none
  | _ + 1, s, .done a => some (a, s)
  | n + 1, s, .read k => alone n s (k s)
  | n + 1, s, .write g k => alone n (st.takeJobs (g s)).2 k
  | n + 1, s, .wait d r k =>
    if r s || d.any (· ≤ st.clock s) then alone n s k
    else match d with
      | some t => alone n (st.setClock s t) k
      | none => none
  | n + 1, s, .pass k => alone n s k

variable {st}

/-- A fiber that ends alone has a run amid others that may leave the state as it is and may move
the clock forward. -/
theorem Amid.of_alone (hrefl : ∀ s, R s s) (htick : ∀ s t, st.clock s ≤ t → R s (st.setClock s t))
    (hclock : ∀ s t, st.clock (st.setClock s t) = t) {n : Nat} {f : Fiber σ α} {a : α}
    (h : st.alone n s f = some (a, s')) : st.Amid R s f a s' := by
  induction n generalizing s f with
  | zero => cases h
  | succ n ih =>
    cases f with
    | done b =>
      simp only [alone, Option.some.injEq, Prod.mk.injEq] at h
      obtain ⟨rfl, rfl⟩ := h
      exact .done
    | read k => exact .read (ih h)
    | write g k => exact .write (ih h)
    | wait d r k =>
      simp only [alone] at h
      split at h
      · next hready => exact .wait (hrefl s) hready (ih h)
      · next hwait =>
        -- the clock jumps to the deadline, which has not come yet
        split at h
        · next t =>
          have hlate : ¬ t ≤ st.clock s := fun hle => by simp [hle] at hwait
          refine .wait (htick s t (by omega)) (by simp [hclock]) (ih h)
        · cases h
    | pass k => exact .pass (hrefl s) (ih h)

end Stage

end TierCache
