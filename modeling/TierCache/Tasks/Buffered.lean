import TierCache.Tasks.Fiber

/-!
# Fibers in flight inside one fiber

`Fiber.buffered limit start fold clock items init` runs `start b` for each item `b`, at most `limit`
at once (any number when `limit` is 0), all inside one fiber, and folds their answers into `init`
in the order they end. Items start in the order of the list as soon as there is room; the fibers
in flight take turns, each running until it ends, waits for what has not happened yet, or gives
way; and when all of them wait, the whole waits until the first of them can go on. This is a
stream of futures run through `buffer_unordered` and folded, on one task.

A fiber is woken past its wait: it goes on with what follows the wait when its turn comes. For a
wait on a deadline this is the same as looking again then, as the clock does not go back.

Each turn of the loop starts an item, or takes a fiber in flight one step on (`Fiber.Sub`), or
moves a fiber from the queue to the waiting ones, or wakes waiting ones. Each time, the backlog
gets smaller in a well-founded order (`Buffer.Backlog`): first the items not started, then the
fibers in flight as a multiset, where one fiber may be replaced by a smaller one (`Buffer.Shrink`).
-/

namespace TierCache

namespace Fiber

variable {σ α : Type}

/-- `Sub g f`: `g` is what `f` goes on with after its first step. -/
inductive Sub : Fiber σ α → Fiber σ α → Prop
  | read (k : σ → Fiber σ α) (s : σ) : Sub (k s) (read k)
  | write (g : σ → σ) (k : Fiber σ α) : Sub k (write g k)
  | wait (d : Option Nat) (r : σ → Bool) (k : Fiber σ α) : Sub k (wait d r k)
  | pass (k : Fiber σ α) : Sub k (pass k)

theorem sub_wf : WellFounded (@Sub σ α) := by
  refine ⟨fun f => ?_⟩
  induction f with
  | done a => exact ⟨_, fun _ h => nomatch h⟩
  | read k ih => exact ⟨_, fun _ h => by cases h; exact ih _⟩
  | write g k ih => exact ⟨_, fun _ h => by cases h; exact ih⟩
  | wait d r k ih => exact ⟨_, fun _ h => by cases h; exact ih⟩
  | pass k ih => exact ⟨_, fun _ h => by cases h; exact ih⟩

end Fiber

namespace Buffer

/-! ## Lists whose elements shrink one at a time -/

section Shrink

variable {τ : Type} {r : τ → τ → Prop}

/-- `Shrink r l' l`: `l'` is `l`, the order aside, with one element replaced by at most one element
below it under `r`. -/
def Shrink (r : τ → τ → Prop) (l' l : List τ) : Prop :=
  ∃ a rest, ∃ b : Option τ, l.Perm (a :: rest) ∧ l'.Perm (b.toList ++ rest) ∧ ∀ x ∈ b, r x a

theorem Shrink.perm_right {l' l₁ l₂ : List τ} (h : Shrink r l' l₁) (hp : l₁.Perm l₂) :
    Shrink r l' l₂ := by
  obtain ⟨a, rest, b, h₁, h₂, hr⟩ := h
  exact ⟨a, rest, b, hp.symm.trans h₁, h₂, hr⟩

theorem acc_shrink_of_perm {l₁ l₂ : List τ} (h : Acc (Shrink r) l₁) (hp : l₂.Perm l₁) :
    Acc (Shrink r) l₂ :=
  ⟨_, fun _ hl' => h.inv (hl'.perm_right hp)⟩

/-- Replacing any element of `a :: t` by a smaller one, or dropping it, leads to a list that is again
`a` on something smaller than `t`, or something smaller than `a` on `t`. -/
theorem acc_shrink_cons {a : τ} (ha : Acc r a) : ∀ {t : List τ}, Acc (Shrink r) t →
    Acc (Shrink r) (a :: t) := by
  induction ha with
  | intro a _ iha =>
    intro t ht
    induction ht with
    | intro t hacc iht =>
      refine ⟨_, fun l' ⟨x, rest, b, hl, hl', hr⟩ => ?_⟩
      rcases List.mem_cons.1 (hl.mem_iff.1 List.mem_cons_self) with rfl | hmem
      · -- the element replaced is `a` itself
        have ht : t.Perm rest := (List.perm_cons _).1 hl
        cases b with
        | none => exact acc_shrink_of_perm ⟨t, hacc⟩ (hl'.trans ht.symm)
        | some y => exact acc_shrink_of_perm (iha y (hr y rfl) ⟨t, hacc⟩) (hl'.trans (ht.symm.cons y))
      · -- the element replaced is in `t`, and `a` stays
        obtain ⟨u, v, rfl⟩ := List.append_of_mem hmem
        have ht : t.Perm (x :: (u ++ v)) := (List.perm_cons a).1
          (hl.trans ((List.perm_middle.cons x).trans (List.Perm.swap a x _)))
        have hsmaller : Shrink r (b.toList ++ (u ++ v)) t := ⟨x, u ++ v, b, ht, .rfl, hr⟩
        have hmoved : (b.toList ++ (u ++ a :: v)).Perm (a :: (b.toList ++ (u ++ v))) := by
          simpa only [List.append_assoc] using
            (@List.perm_middle _ a (b.toList ++ u) v)
        exact acc_shrink_of_perm (iht _ hsmaller) (hl'.trans hmoved)

theorem shrink_wf (hr : WellFounded r) : WellFounded (Shrink r) := by
  refine ⟨fun l => ?_⟩
  induction l with
  | nil => exact ⟨_, fun _ ⟨_, _, _, h, _⟩ => by simp at h⟩
  | cons a t ih => exact acc_shrink_cons (hr.apply a) ih

theorem Shrink.cons {l' l : List τ} (x : τ) (h : Shrink r l' l) : Shrink r (x :: l') (x :: l) := by
  obtain ⟨a, rest, b, hl, hl', hr⟩ := h
  refine ⟨a, x :: rest, b, (hl.cons x).trans (List.Perm.swap a x rest), (hl'.cons x).trans ?_, hr⟩
  exact List.perm_middle.symm

theorem transGen_shrink_cons {l' l : List τ} (x : τ) (h : Relation.TransGen (Shrink r) l' l) :
    Relation.TransGen (Shrink r) (x :: l') (x :: l) := by
  induction h with
  | single h => exact .single (h.cons x)
  | tail _ h ih => exact .tail ih (h.cons x)

/-- Replacing each of several elements by one below it is a chain of `Shrink` steps. -/
theorem transGen_shrink_map {ι : Type} {f g : ι → τ} (hfg : ∀ i, r (f i) (g i)) :
    ∀ (ws : List ι) (rest : List τ), ws ≠ [] →
      Relation.TransGen (Shrink r) (ws.map f ++ rest) (ws.map g ++ rest)
  | [], _, hws => absurd rfl hws
  | [w], rest, _ => .single ⟨g w, rest, some (f w), .rfl, .rfl, fun _ h => by cases h; exact hfg w⟩
  | w :: w' :: ws, rest, _ =>
    -- the later ones first, with `f w` in front; then `w` itself
    .tail (transGen_shrink_cons (f w) (transGen_shrink_map hfg _ rest (List.cons_ne_nil w' ws)))
      ⟨g w, (w' :: ws).map g ++ rest, some (f w), .rfl, .rfl, fun _ h => by cases h; exact hfg w⟩

end Shrink

/-! ## The backlog -/

section Backlog

variable {σ β γ δ : Type}

/-- A fiber in flight is below another when it is a later part of it, or the same fiber taken off
the queue to wait. -/
def FlightLt : Fiber σ γ × Bool → Fiber σ γ × Bool → Prop :=
  Prod.Lex Fiber.Sub fun q q' => q = false ∧ q' = true

theorem flightLt_wf : WellFounded (@FlightLt σ γ) := by
  have hq : WellFounded fun q q' : Bool => q = false ∧ q' = true :=
    ⟨fun q => ⟨q, fun q' h => ⟨q', fun _ h' => by cases h.1; cases h'.2⟩⟩⟩
  exact (Prod.lex ⟨_, Fiber.sub_wf⟩ ⟨_, hq⟩).wf

/-- What a buffer has left to do: the number of items not started, and each fiber in flight with
whether it is queued (`true`) or waiting (`false`). -/
structure Backlog (σ γ : Type) where
  unstarted : Nat
  flights : List (Fiber σ γ × Bool)

instance : WellFoundedRelation (Backlog σ γ) :=
  invImage (fun b => (b.unstarted, b.flights))
    (Prod.lex Nat.lt_wfRel ⟨_, (shrink_wf flightLt_wf).transGen⟩)

/-- A fiber of the buffer that waits: the item it was started for, its wait's deadline and
condition, and what it goes on with after the wait. -/
structure Parked (σ β γ : Type) where
  item : β
  deadline : Option Nat
  ready : σ → Bool
  next : Fiber σ γ

/-- The waiting fiber itself. -/
def Parked.fiber (p : Parked σ β γ) : Fiber σ γ := .wait p.deadline p.ready p.next

/-- Whether the wait is over in `s`, the clock reading `now`. -/
def Parked.due (now : Nat) (s : σ) (p : Parked σ β γ) : Bool :=
  p.ready s || p.deadline.any (· ≤ now)

/-- The fibers in flight, the queued ones first. -/
def flights (queued : List (β × Fiber σ γ)) (parked : List (Parked σ β γ)) :
    List (Fiber σ γ × Bool) :=
  queued.map (fun x => (x.2, true)) ++ parked.map fun p => (p.fiber, false)

/-- The earliest deadline among the waiting fibers. -/
def earliest : List (Parked σ β γ) → Option Nat
  | [] => none
  | p :: ps => match p.deadline, earliest ps with
    | some d, some e => some (min d e)
    | some d, none => some d
    | none, e => e

/-- The waiting fibers whose wait is over in `s`, queued the earliest deadline first with what
follows their wait, and those that still wait. When none is over, which cannot be once the wait of
the whole is over, all are woken. -/
def wake (clock : σ → Nat) (s : σ) (parked : List (Parked σ β γ)) :
    List (β × Fiber σ γ) × List (Parked σ β γ) :=
  match parked.partition (·.due (clock s) s) with
  | ([], _) => (parked.map fun p => (p.item, p.next), [])
  | (due, still) =>
    ((due.mergeSort fun a b => a.deadline.getD 0 ≤ b.deadline.getD 0).map fun p => (p.item, p.next),
      still)

/-! Each turn of the buffer shrinks the fibers in flight. -/

theorem Shrink.transGen_perm_right {τ : Type} {r : τ → τ → Prop} {l' l₁ l₂ : List τ}
    (h : Relation.TransGen (Shrink r) l' l₁) (hp : l₁.Perm l₂) : Relation.TransGen (Shrink r) l' l₂ := by
  cases h with
  | single h => exact .single (h.perm_right hp)
  | tail h₁ h₂ => exact .tail h₁ (h₂.perm_right hp)

theorem shrink_done (b : β) (c : γ) (rs : List (β × Fiber σ γ)) (parked : List (Parked σ β γ)) :
    Shrink FlightLt (flights rs parked) (flights ((b, .done c) :: rs) parked) :=
  ⟨_, _, none, .rfl, .rfl, by simp⟩

theorem shrink_step {f' f : Fiber σ γ} (h : Fiber.Sub f' f) (b : β) (rs : List (β × Fiber σ γ))
    (parked : List (Parked σ β γ)) :
    Shrink FlightLt (flights ((b, f') :: rs) parked) (flights ((b, f) :: rs) parked) :=
  ⟨_, _, some (f', true), .rfl, .rfl, fun _ hx => by cases hx; exact .left _ _ h⟩

theorem shrink_park (p : Parked σ β γ) (rs : List (β × Fiber σ γ)) (parked : List (Parked σ β γ)) :
    Shrink FlightLt (flights rs (parked ++ [p])) (flights ((p.item, p.fiber) :: rs) parked) := by
  refine ⟨_, _, some (p.fiber, false), .rfl, ?_, fun _ hx => by cases hx; exact .right _ ⟨rfl, rfl⟩⟩
  simpa [flights] using List.perm_append_singleton (p.fiber, false) (flights rs parked)

theorem shrink_pass (b : β) (k : Fiber σ γ) (rs : List (β × Fiber σ γ)) (parked : List (Parked σ β γ)) :
    Shrink FlightLt (flights (rs ++ [(b, k)]) parked) (flights ((b, k.pass) :: rs) parked) := by
  refine ⟨_, _, some (k, true), .rfl, ?_, fun _ hx => by cases hx; exact .left _ _ (.pass k)⟩
  simp [flights]

/-- Waking fibers that wait takes each of them one step on. -/
theorem shrink_wake (clock : σ → Nat) (s : σ) (p : Parked σ β γ) (ps : List (Parked σ β γ)) :
    Relation.TransGen (Shrink FlightLt) (flights (wake clock s (p :: ps)).1 (wake clock s (p :: ps)).2)
      (flights [] (p :: ps)) := by
  have hnext : ∀ q : Parked σ β γ, FlightLt (q.next, true) (q.fiber, false) :=
    fun q => .left _ _ (.wait _ _ _)
  unfold wake
  split
  · next hnone =>
    simpa [flights, List.map_map, Function.comp_def] using
      transGen_shrink_map hnext (p :: ps) [] (List.cons_ne_nil _ _)
  · next due still hdue hsplit =>
    rw [List.partition_eq_filter_filter] at hsplit
    obtain ⟨rfl, rfl⟩ := Prod.mk.inj hsplit
    -- the woken ones, in deadline order, together with those still waiting, are all of them
    have hsorted := List.mergeSort_perm (List.filter (·.due (clock s) s) (p :: ps))
      fun a b => a.deadline.getD 0 ≤ b.deadline.getD 0
    have hall := (hsorted.append_right _).trans (List.filter_append_perm _ (p :: ps))
    refine Shrink.transGen_perm_right ?_ ((hall.map fun q => (q.fiber, false)).trans ?_)
    · have hne : List.mergeSort (List.filter (·.due (clock s) s) (p :: ps))
          (fun a b => a.deadline.getD 0 ≤ b.deadline.getD 0) ≠ [] := fun h =>
        hdue (List.perm_nil.1 (h ▸ hsorted.symm))
      simpa [flights, List.map_map, Function.comp_def] using
        transGen_shrink_map hnext _ _ hne
    · simp [flights]

/-- Whether there is room to start another item. -/
def room (limit : Nat) (queued : List (β × Fiber σ γ)) (parked : List (Parked σ β γ)) : Bool :=
  limit == 0 || queued.length + parked.length < limit

section Loop

variable (limit : Nat) (start : β → Fiber σ γ) (fold : δ → γ → δ) (clock : σ → Nat)

/-- The buffer with `pending` items not started, the fibers `queued` to run with their items, the
fibers `parked` on a wait, and the answers folded so far. -/
def go (pending : List β) (queued : List (β × Fiber σ γ)) (parked : List (Parked σ β γ))
    (acc : δ) : Fiber σ δ :=
  match pending, room limit queued parked, queued with
  | b :: rest, true, _ => go rest (queued ++ [(b, start b)]) parked acc
  | pending, _, (_, .done c) :: rs => go pending rs parked (fold acc c)
  | pending, _, (b, .read k) :: rs => .read fun s => go pending ((b, k s) :: rs) parked acc
  | pending, _, (b, .write g k) :: rs => .write g (go pending ((b, k) :: rs) parked acc)
  | pending, _, (b, .wait d r k) :: rs => .read fun s =>
    if r s || d.any (· ≤ clock s) then go pending ((b, k) :: rs) parked acc
    else go pending rs (parked ++ [⟨b, d, r, k⟩]) acc
  | pending, _, (b, .pass k) :: rs => .pass (go pending (rs ++ [(b, k)]) parked acc)
  | pending, _, [] =>
    match parked with
    | [] => .done acc
    | p :: ps => .wait (earliest (p :: ps)) (fun s => (p :: ps).any (·.ready s)) (.read fun s =>
      go pending (wake clock s (p :: ps)).1 (wake clock s (p :: ps)).2 acc)
termination_by Backlog.mk pending.length (flights queued parked)
decreasing_by
  · exact .left _ _ (Nat.lt_succ_self _)
  · exact .right _ (.single (shrink_done _ _ _ _))
  · exact .right _ (.single (shrink_step (.read k s) _ _ _))
  · exact .right _ (.single (shrink_step (.write g k) _ _ _))
  · exact .right _ (.single (shrink_step (.wait d r k) _ _ _))
  · exact .right _ (.single (shrink_park ⟨b, d, r, k⟩ _ _))
  · exact .right _ (.single (shrink_pass _ _ _ _))
  · exact .right _ (shrink_wake _ _ _ _)

end Loop

/-- The buffer starts no item now: none is left, or there is no room. -/
def Full (limit : Nat) (pending : List β) (queued : List (β × Fiber σ γ))
    (parked : List (Parked σ β γ)) : Prop :=
  ∀ b rest, pending = b :: rest → room limit queued parked = true → False

section Unfold

variable {limit : Nat} {start : β → Fiber σ γ} {fold : δ → γ → δ} {clock : σ → Nat}
  {pending : List β} {parked : List (Parked σ β γ)} {acc : δ} {b : β} {rs : List (β × Fiber σ γ)}

theorem go_start {rest : List β} {queued : List (β × Fiber σ γ)} (h : room limit queued parked = true) :
    go limit start fold clock (b :: rest) queued parked acc =
      go limit start fold clock rest (queued ++ [(b, start b)]) parked acc :=
  go.eq_1 _ _ _ _ _ _ _ _ _ h

theorem go_done {c : γ} (h : Full limit pending ((b, .done c) :: rs) parked) :
    go limit start fold clock pending ((b, .done c) :: rs) parked acc =
      go limit start fold clock pending rs parked (fold acc c) :=
  go.eq_2 _ _ _ _ _ _ _ _ _ _ h

theorem go_read {k : σ → Fiber σ γ} (h : Full limit pending ((b, .read k) :: rs) parked) :
    go limit start fold clock pending ((b, .read k) :: rs) parked acc =
      .read fun s => go limit start fold clock pending ((b, k s) :: rs) parked acc :=
  go.eq_3 _ _ _ _ _ _ _ _ _ _ h

theorem go_write {g : σ → σ} {k : Fiber σ γ} (h : Full limit pending ((b, .write g k) :: rs) parked) :
    go limit start fold clock pending ((b, .write g k) :: rs) parked acc =
      .write g (go limit start fold clock pending ((b, k) :: rs) parked acc) :=
  go.eq_4 _ _ _ _ _ _ _ _ _ _ _ h

theorem go_wait {d : Option Nat} {r : σ → Bool} {k : Fiber σ γ}
    (h : Full limit pending ((b, .wait d r k) :: rs) parked) :
    go limit start fold clock pending ((b, .wait d r k) :: rs) parked acc = .read fun s =>
      if r s || d.any (· ≤ clock s) then go limit start fold clock pending ((b, k) :: rs) parked acc
      else go limit start fold clock pending rs (parked ++ [⟨b, d, r, k⟩]) acc :=
  go.eq_5 _ _ _ _ _ _ _ _ _ _ _ _ h

theorem go_pass {k : Fiber σ γ} (h : Full limit pending ((b, .pass k) :: rs) parked) :
    go limit start fold clock pending ((b, .pass k) :: rs) parked acc =
      .pass (go limit start fold clock pending (rs ++ [(b, k)]) parked acc) :=
  go.eq_6 _ _ _ _ _ _ _ _ _ _ h

theorem go_idle (h : Full limit pending ([] : List (β × Fiber σ γ)) ([] : List (Parked σ β γ))) :
    go limit start fold clock pending ([] : List (β × Fiber σ γ)) [] acc = .done acc :=
  go.eq_7 _ _ _ _ _ _ h

theorem go_sleep {p : Parked σ β γ} {ps : List (Parked σ β γ)} (h : Full limit pending [] (p :: ps)) :
    go limit start fold clock pending [] (p :: ps) acc =
      .wait (earliest (p :: ps)) (fun s => (p :: ps).any (·.ready s)) (.read fun s =>
        go limit start fold clock pending (wake clock s (p :: ps)).1 (wake clock s (p :: ps)).2 acc) :=
  go.eq_8 _ _ _ _ _ _ _ _ h

end Unfold

end Backlog

end Buffer

namespace Fiber

variable {σ β γ δ : Type}

/-- Runs `start b` for each of the `items`, at most `limit` at once (any number when `limit` is 0),
and folds their answers into `init` in the order they end; `clock` reads the clock. -/
def buffered (limit : Nat) (start : β → Fiber σ γ) (fold : δ → γ → δ) (clock : σ → Nat)
    (items : List β) (init : δ) : Fiber σ δ :=
  Buffer.go limit start fold clock items [] [] init

end Fiber

end TierCache
