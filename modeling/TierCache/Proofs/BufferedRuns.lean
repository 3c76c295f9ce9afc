import TierCache.Proofs.AmidOthers
import TierCache.Tasks.Buffered

/-!
# Runs of a buffer of fibers

What each fiber of `Fiber.buffered` keeps within, the whole keeps within; fibers that only sleep
end whenever the clock may move, and a run of the whole is one run of each item's fiber, amid the
others, with the answers folded in the order they came (`Stage.Amid.of_buffered`).
-/

namespace TierCache

variable {σ τ α β γ δ : Type}

namespace Buffer

/-! ## Waiting fibers -/

section Waiting

variable {ps : List (Parked σ β γ)}

theorem earliest_mem {e : Nat} (h : earliest ps = some e) : ∃ p ∈ ps, p.deadline = some e := by
  induction ps generalizing e with
  | nil => cases h
  | cons p ps ih =>
    simp only [earliest] at h
    split at h
    · next d e' hd hrest =>
      cases h
      by_cases hle : d ≤ e'
      · exact ⟨p, List.mem_cons_self, by rw [hd, Nat.min_eq_left hle]⟩
      · obtain ⟨q, hq, hqe⟩ := ih hrest
        exact ⟨q, List.mem_cons_of_mem _ hq, by rw [hqe, Nat.min_eq_right (by omega)]⟩
    · next d hd _ =>
      cases h
      exact ⟨p, List.mem_cons_self, hd⟩
    · next _ =>
      obtain ⟨q, hq, hqe⟩ := ih h
      exact ⟨q, List.mem_cons_of_mem _ hq, hqe⟩

theorem earliest_isSome (hne : ps ≠ []) (hd : ∀ p ∈ ps, p.deadline.isSome) : (earliest ps).isSome := by
  cases ps with
  | nil => exact absurd rfl hne
  | cons p ps =>
    obtain ⟨d, hpd⟩ := Option.isSome_iff_exists.1 (hd p List.mem_cons_self)
    simp only [earliest]
    split <;> simp_all

theorem room_nil (limit : Nat) : room limit ([] : List (β × Fiber σ γ)) ([] : List (Parked σ β γ)) = true := by
  cases limit <;> simp [room]

end Waiting

section Waking

variable (clock : σ → Nat) (s : σ) (ps : List (Parked σ β γ))

theorem mem_wake_snd {p : Parked σ β γ} (hp : p ∈ (wake clock s ps).2) : p ∈ ps := by
  unfold wake at hp
  split at hp
  · cases hp
  · next hsplit =>
    rw [List.partition_eq_filter_filter] at hsplit
    cases hsplit
    exact List.mem_of_mem_filter hp

/-- A woken fiber is a waiting one taken past its wait, and its wait is over when any is. -/
theorem mem_wake_fst {x : β × Fiber σ γ} (hx : x ∈ (wake clock s ps).1) :
    ∃ p ∈ ps, x = (p.item, p.next) ∧ ((∃ q ∈ ps, q.due (clock s) s = true) → p.due (clock s) s = true) := by
  unfold wake at hx
  split at hx
  · next still hsplit =>
    obtain ⟨p, hp, rfl⟩ := List.mem_map.1 hx
    refine ⟨p, hp, rfl, fun ⟨q, hq, hdue⟩ => ?_⟩
    -- none was over
    rw [List.partition_eq_filter_filter] at hsplit
    have hnone := (Prod.mk.inj hsplit).1
    exact absurd (List.mem_filter.2 ⟨hq, hdue⟩) (by rw [hnone]; simp)
  · next due still _ hsplit =>
    rw [List.partition_eq_filter_filter] at hsplit
    obtain ⟨rfl, rfl⟩ := Prod.mk.inj hsplit
    obtain ⟨p, hp, rfl⟩ := List.mem_map.1 hx
    obtain ⟨hmem, hdue⟩ := List.mem_filter.1 ((List.mergeSort_perm _ _).mem_iff.1 hp)
    exact ⟨p, hmem, rfl, fun _ => hdue⟩

/-- Waking keeps the items in flight. -/
theorem wake_items :
    ((wake clock s ps).1.map Prod.fst ++ (wake clock s ps).2.map Parked.item).Perm (ps.map Parked.item) := by
  unfold wake
  split
  · simp [List.map_map, Function.comp_def]
  · next hsplit =>
    rw [List.partition_eq_filter_filter] at hsplit
    obtain ⟨rfl, rfl⟩ := Prod.mk.inj hsplit
    simp only [List.map_map, Function.comp_def]
    rw [← List.map_append]
    refine List.Perm.map _ ?_
    exact ((List.mergeSort_perm _ _).append_right _).trans (List.filter_append_perm _ ps)

end Waking

end Buffer

namespace Stage

open Buffer

variable {st : Stage σ τ} {R : σ → σ → Prop} {limit : Nat} {start : β → Fiber σ γ} {fold : δ → γ → δ}
  {clock : σ → Nat}

/-! ## The queue -/

/-- The fibers queued in a buffer at `s`: the first meets `Q s`, and each of the others meets `Q s₁`
in every state `s₁` that `L` allows from `s`. -/
structure Queue (L : σ → σ → Prop) (Q : σ → β × Fiber σ γ → Prop) (s : σ)
    (queued : List (β × Fiber σ γ)) : Prop where
  first : ∀ x ∈ queued.head?, Q s x
  rest : ∀ x ∈ queued.tail, ∀ s₁, L s s₁ → Q s₁ x

namespace Queue

variable {L : σ → σ → Prop} {Q : σ → β × Fiber σ γ → Prop} {s s' : σ} {x y : β × Fiber σ γ}
  {rs : List (β × Fiber σ γ)}

theorem head (h : Queue L Q s (x :: rs)) : Q s x := h.first x rfl

theorem of_later {l : List (β × Fiber σ γ)} (h : ∀ x ∈ l, ∀ s₁, L s s₁ → Q s₁ x) (hrefl : L s s) :
    Queue L Q s l :=
  ⟨fun x hx => h x (List.mem_of_mem_head? hx) s hrefl,
    fun x hx s₁ hs₁ => h x (List.mem_of_mem_tail hx) s₁ hs₁⟩

theorem of_forall {l : List (β × Fiber σ γ)} (h : ∀ x ∈ l, ∀ s₁, Q s₁ x) :
    Queue (fun _ _ => True) Q s l :=
  of_later (fun x hx s₁ _ => h x hx s₁) trivial

theorem pop (h : Queue L Q s (x :: rs)) (hrefl : L s s) : Queue L Q s rs :=
  ⟨fun y hy => h.rest y (List.mem_of_mem_head? hy) s hrefl,
    fun y hy s₁ hs₁ => h.rest y (List.mem_of_mem_tail hy) s₁ hs₁⟩

-- The first fiber takes a step to `s'`, from where the others are still owed what they were.
theorem step (h : Queue L Q s (x :: rs)) (hy : Q s' y) (hL : ∀ s₁, L s' s₁ → L s s₁) :
    Queue L Q s' (y :: rs) :=
  ⟨fun z hz => by cases hz; exact hy, fun z hz s₁ hs₁ => h.rest z hz s₁ (hL s₁ hs₁)⟩

theorem push {queued : List (β × Fiber σ γ)} (h : Queue L Q s queued) (hrefl : L s s)
    (hy : ∀ s₁, L s s₁ → Q s₁ y) : Queue L Q s (queued ++ [y]) := by
  cases queued with
  | nil => exact ⟨fun z hz => by cases hz; exact hy s hrefl, fun z hz => by cases hz⟩
  | cons x xs =>
    refine ⟨fun z hz => by cases hz; exact h.head, fun z hz s₁ hs₁ => ?_⟩
    rcases List.mem_append.1 hz with hz | hz
    · exact h.rest z hz s₁ hs₁
    · simp only [List.mem_singleton] at hz
      exact hz ▸ hy s₁ hs₁

end Queue

/-! ## Changes within a relation -/

theorem Within.go {P : σ → σ → Prop} (pending : List β) (queued : List (β × Fiber σ γ))
    (parked : List (Parked σ β γ)) (acc : δ) :
    (∀ b ∈ pending, ∀ s, st.Within P s (start b)) → (∀ p ∈ parked, ∀ s, st.Within P s p.next) →
      ∀ s, Queue (fun _ _ => True) (fun s x => st.Within P s x.2) s queued →
        st.Within P s (Buffer.go limit start fold clock pending queued parked acc) := by
  induction pending, queued, parked, acc using Buffer.go.induct limit start fold clock with
  | case1 queued parked acc b rest hroom ih =>
    intro hp hpk s hq
    rw [go_start hroom]
    exact ih (fun b' hb' => hp b' (List.mem_cons_of_mem _ hb')) hpk s
      (hq.push trivial fun s₁ _ => hp b List.mem_cons_self s₁)
  | case2 parked acc pending b c rs hfull ih =>
    intro hp hpk s hq
    rw [go_done hfull]
    exact ih hp hpk s (hq.pop trivial)
  | case3 parked acc pending b k rs hfull ih =>
    intro hp hpk s hq
    rw [go_read hfull]
    cases hq.head with
    | read hk => exact .read (ih s hp hpk s (hq.step hk fun _ _ => trivial))
  | case4 parked acc pending b g k rs hfull ih =>
    intro hp hpk s hq
    rw [go_write hfull]
    cases hq.head with
    | write hP hk => exact .write hP (ih hp hpk _ (hq.step hk fun _ _ => trivial))
  | case5 parked acc pending b d r k rs hfull ihready ihpark =>
    intro hp hpk s hq
    rw [go_wait hfull]
    cases hq.head with
    | wait hk =>
      refine .read ?_
      split
      · exact ihready hp hpk s (hq.step (hk s) fun _ _ => trivial)
      · refine ihpark hp (fun p hp' => ?_) s (hq.pop trivial)
        rcases List.mem_append.1 hp' with hp' | hp'
        · exact hpk p hp'
        · simp only [List.mem_singleton] at hp'
          exact hp' ▸ hk
  | case6 parked acc pending b k rs hfull ih =>
    intro hp hpk s hq
    rw [go_pass hfull]
    cases hq.head with
    | pass hk =>
      -- after giving way, every fiber queued goes on from whatever state it finds
      refine .pass fun s' => ih hp hpk s' (.of_forall fun x hx s₁ => ?_)
      rcases List.mem_append.1 hx with hx | hx
      · exact hq.rest x hx s₁ trivial
      · simp only [List.mem_singleton] at hx
        exact hx ▸ hk s₁
  | case7 acc pending hfull =>
    intro _ _ s _
    rw [go_idle hfull]
    exact .done
  | case8 acc pending p ps hfull ih =>
    intro hp hpk s _
    rw [go_sleep hfull]
    -- the woken fibers and those still waiting are all waiting ones
    refine .wait fun s₁ => .read (ih s₁ hp (fun q hq => hpk q (mem_wake_snd clock s₁ _ hq)) s₁
      (.of_forall fun x hx s₂ => ?_))
    obtain ⟨q, hq, rfl, -⟩ := mem_wake_fst clock s₁ _ hx
    exact hpk q hq s₂

/-- A buffer stays within `P` when each of its fibers does, from any state. -/
theorem Within.buffered {P : σ → σ → Prop} {items : List β} {init : δ}
    (hstart : ∀ b ∈ items, ∀ s, st.Within P s (start b)) (s : σ) :
    st.Within P s (Fiber.buffered limit start fold clock items init) :=
  Within.go items [] [] init hstart (by simp) s (.of_forall (by simp))

/-! ## Fibers that sleep -/

variable (st)

/-- The fiber waits only for deadlines, never gives way, and each of its changes, with the jobs it
hands over, is one `K` allows. -/
inductive Sleeper (K : σ → σ → Prop) : σ → Fiber σ α → Prop
  | done {s a} : Sleeper K s (.done a)
  | read {s k} : Sleeper K s (k s) → Sleeper K s (.read k)
  | write {s g k} : K s (st.takeJobs (g s)).2 → Sleeper K (st.takeJobs (g s)).2 k →
      Sleeper K s (.write g k)
  | wait {s t r k} : (∀ s, r s = false) → (∀ s', Sleeper K s' k) → Sleeper K s (.wait (some t) r k)

variable {st} {K : σ → σ → Prop}

theorem Sleeper.bind {f : Fiber σ α} {g : α → Fiber σ β} {s : σ} (hf : st.Sleeper K s f)
    (hg : ∀ a s', st.Sleeper K s' (g a)) : st.Sleeper K s (f.bind g) := by
  induction hf with
  | done => exact hg _ _
  | read _ ih => exact .read ih
  | write hc _ ih => exact .write hc ih
  | wait hr _ ih => exact .wait hr ih

/-! ## Runs to the end -/

section Ends

variable (htick : ∀ s t, st.clock s ≤ t → R s (st.setClock s t))
  (hclock : ∀ s t, st.clock (st.setClock s t) = t)

include hclock in
theorem le_clock_setClock_max (s : σ) (t : Nat) : t ≤ st.clock (st.setClock s (max (st.clock s) t)) := by
  rw [hclock]
  exact Nat.le_max_right _ _

include htick hclock in
/-- A fiber that sleeps ends, from any state, once the others let the clock move. -/
theorem Amid.sleeper_exists {f : Fiber σ α} {s : σ} (hf : st.Sleeper K s f) :
    ∃ a s', st.Amid R s f a s' := by
  induction hf with
  | done => exact ⟨_, _, .done⟩
  | read _ ih =>
    obtain ⟨a, s', hrun⟩ := ih
    exact ⟨a, s', .read hrun⟩
  | write _ _ ih =>
    obtain ⟨a, s', hrun⟩ := ih
    exact ⟨a, s', .write hrun⟩
  | @wait s t r k _ _ ih =>
    -- the others move the clock to the deadline
    obtain ⟨a, s', hrun⟩ := ih (st.setClock s (max (st.clock s) t))
    exact ⟨a, s', .wait (htick s _ (Nat.le_max_left _ _))
      (by simp [le_clock_setClock_max hclock s t]) hrun⟩

include htick hclock in
theorem Amid.go_exists (pending : List β) (queued : List (β × Fiber σ γ)) (parked : List (Parked σ β γ))
    (acc : δ) :
    (∀ b ∈ pending, ∀ s, st.Sleeper K s (start b)) →
      (∀ p ∈ parked, p.deadline.isSome ∧ ∀ s, st.Sleeper K s p.next) →
      ∀ s, Queue (fun _ _ => True) (fun s x => st.Sleeper K s x.2) s queued →
        ∃ a s', st.Amid R s (Buffer.go limit start fold st.clock pending queued parked acc) a s' := by
  induction pending, queued, parked, acc using Buffer.go.induct limit start fold st.clock with
  | case1 queued parked acc b rest hroom ih =>
    intro hp hpk s hq
    rw [go_start hroom]
    exact ih (fun b' hb' => hp b' (List.mem_cons_of_mem _ hb')) hpk s
      (hq.push trivial fun s₁ _ => hp b List.mem_cons_self s₁)
  | case2 parked acc pending b c rs hfull ih =>
    intro hp hpk s hq
    rw [go_done hfull]
    exact ih hp hpk s (hq.pop trivial)
  | case3 parked acc pending b k rs hfull ih =>
    intro hp hpk s hq
    rw [go_read hfull]
    cases hq.head with
    | read hk =>
      obtain ⟨a, s', hrun⟩ := ih s hp hpk s (hq.step hk fun _ _ => trivial)
      exact ⟨a, s', .read hrun⟩
  | case4 parked acc pending b g k rs hfull ih =>
    intro hp hpk s hq
    rw [go_write hfull]
    cases hq.head with
    | write _ hk =>
      obtain ⟨a, s', hrun⟩ := ih hp hpk _ (hq.step hk fun _ _ => trivial)
      exact ⟨a, s', .write hrun⟩
  | case5 parked acc pending b d r k rs hfull ihready ihpark =>
    intro hp hpk s hq
    rw [go_wait hfull]
    cases hq.head with
    | @wait _ t _ _ _ hk =>
      by_cases hready : (r s || (some t).any (· ≤ st.clock s)) = true
      · obtain ⟨a, s', hrun⟩ := ihready hp hpk s (hq.step (hk s) fun _ _ => trivial)
        exact ⟨a, s', .read (by rw [if_pos hready]; exact hrun)⟩
      · have hpk' : ∀ p ∈ parked ++ [⟨b, some t, r, k⟩], p.deadline.isSome ∧ ∀ s, st.Sleeper K s p.next := by
          intro p hp'
          rcases List.mem_append.1 hp' with hp' | hp'
          · exact hpk p hp'
          · simp only [List.mem_singleton] at hp'
            exact hp' ▸ ⟨rfl, hk⟩
        obtain ⟨a, s', hrun⟩ := ihpark hp hpk' s (hq.pop trivial)
        exact ⟨a, s', .read (by rw [if_neg hready]; exact hrun)⟩
  | case6 parked acc pending b k rs hfull ih =>
    intro _ _ s hq
    cases hq.head
  | case7 acc pending hfull =>
    intro _ _ s _
    exact ⟨acc, s, by rw [go_idle hfull]; exact .done⟩
  | case8 acc pending p ps hfull ih =>
    intro hp hpk s _
    rw [go_sleep hfull]
    -- the others move the clock to the earliest deadline, and the fibers due then are woken
    obtain ⟨e, he⟩ := Option.isSome_iff_exists.1
      (earliest_isSome (List.cons_ne_nil p ps) fun q hq => (hpk q hq).1)
    obtain ⟨a, s', hrun⟩ := ih (st.setClock s (max (st.clock s) e)) hp
      (fun q hq => hpk q (mem_wake_snd _ _ _ hq)) (st.setClock s (max (st.clock s) e))
      (.of_forall fun x hx s₂ => by
        obtain ⟨q, hq, rfl, -⟩ := mem_wake_fst _ _ _ hx
        exact (hpk q hq).2 s₂)
    refine ⟨a, s', .wait (htick s _ (Nat.le_max_left _ _)) ?_ (.read hrun)⟩
    simp [he, le_clock_setClock_max hclock s e]

include htick hclock in
/-- A buffer of fibers that sleep ends, from any state, once the others let the clock move. -/
theorem Amid.buffered_exists {items : List β} {init : δ}
    (hstart : ∀ b ∈ items, ∀ s, st.Sleeper K s (start b)) (s : σ) :
    ∃ a s', st.Amid R s (Fiber.buffered limit start fold st.clock items init) a s' :=
  Amid.go_exists htick hclock items [] [] init hstart (by simp) s (.of_forall (by simp))

end Ends

/-! ## Runs of each fiber -/

variable (st)

/-- `x.2` is what a run of `start x.1` to its end answers, amid anything, from a state that changes
`K` allows and moves of the others reach from `s₀`. -/
def Ran (K R : σ → σ → Prop) (s₀ : σ) (start : β → Fiber σ γ) (x : β × γ) : Prop :=
  ∃ s s', Relation.ReflTransGen (fun a b => K a b ∨ R a b) s₀ s ∧
    st.Amid (fun _ _ => True) s (start x.1) x.2 s'

/-- What a buffer owes a fiber in flight from `s`: it sleeps, and a run of it from `s` to its end is
the end of a run of its item's fiber. -/
def Owes (K R : σ → σ → Prop) (s₀ : σ) (start : β → Fiber σ γ) (s : σ) (x : β × Fiber σ γ) : Prop :=
  st.Sleeper K s x.2 ∧ ∀ c s', st.Amid (fun _ _ => True) s x.2 c s' → st.Ran K R s₀ start (x.1, c)

/-- What a buffer owes a waiting fiber: it waits for its deadline alone, what follows the wait
sleeps, and a run of that from a state its deadline has come in is the end of a run of its item's
fiber. -/
def OwesParked (K R : σ → σ → Prop) (s₀ : σ) (start : β → Fiber σ γ) (p : Parked σ β γ) : Prop :=
  (∀ s, p.ready s = false) ∧ ∀ s, st.Sleeper K s p.next ∧
    (p.deadline.any (· ≤ st.clock s) = true →
      ∀ c s', st.Amid (fun _ _ => True) s p.next c s' → st.Ran K R s₀ start (p.item, c))

variable {st} {s₀ : σ}

theorem clock_le_of_reflTransGen (hK : ∀ s s', K s s' → st.clock s ≤ st.clock s') {s s' : σ}
    (h : Relation.ReflTransGen K s s') : st.clock s ≤ st.clock s' := by
  induction h with
  | refl => exact Nat.le_refl _
  | tail _ hstep ih => exact Nat.le_trans ih (hK _ _ hstep)

-- The fibers queued are owed from every state their predecessors' changes reach.
theorem Amid.of_go (hK : ∀ s s', K s s' → st.clock s ≤ st.clock s') (pending : List β)
    (queued : List (β × Fiber σ γ)) (parked : List (Parked σ β γ)) (acc : δ) :
    (∀ b ∈ pending, ∀ s, st.Sleeper K s (start b)) → (∀ p ∈ parked, st.OwesParked K R s₀ start p) →
      ∀ s a s', Relation.ReflTransGen (fun a b => K a b ∨ R a b) s₀ s →
        Queue (Relation.ReflTransGen K) (st.Owes K R s₀ start) s queued →
        st.Amid R s (Buffer.go limit start fold st.clock pending queued parked acc) a s' →
          ∃ runs : List (β × γ),
            (runs.map Prod.fst).Perm (pending ++ queued.map Prod.fst ++ parked.map Parked.item) ∧
              a = runs.foldl (fun a x => fold a x.2) acc ∧ ∀ x ∈ runs, st.Ran K R s₀ start x := by
  induction pending, queued, parked, acc using Buffer.go.induct limit start fold st.clock with
  | case1 queued parked acc b rest hroom ih =>
    intro hp hpk s a s' hreach hq hrun
    rw [go_start hroom] at hrun
    -- the new fiber starts from whatever state the fibers before it leave
    have howed : ∀ s₁, Relation.ReflTransGen K s s₁ → st.Owes K R s₀ start s₁ (b, start b) :=
      fun s₁ hs₁ => ⟨hp b List.mem_cons_self s₁, fun c s₂ h =>
        ⟨s₁, s₂, hreach.trans (Relation.ReflTransGen.mono (fun _ _ => Or.inl) _ _ hs₁), h⟩⟩
    obtain ⟨runs, hperm, ha, hran⟩ := ih (fun b' hb' => hp b' (List.mem_cons_of_mem _ hb')) hpk s a s'
      hreach (hq.push .refl howed) hrun
    refine ⟨runs, hperm.trans ?_, ha, hran⟩
    simpa using @List.perm_middle _ b (rest ++ queued.map Prod.fst) (parked.map Parked.item)
  | case2 parked acc pending b c rs hfull ih =>
    intro hp hpk s a s' hreach hq hrun
    rw [go_done hfull] at hrun
    obtain ⟨runs, hperm, ha, hran⟩ := ih hp hpk s a s' hreach (hq.pop .refl) hrun
    refine ⟨(b, c) :: runs, ?_, ha, ?_⟩
    · refine (hperm.cons b).trans ?_
      simpa using (@List.perm_middle _ b pending (rs.map Prod.fst ++ parked.map Parked.item)).symm
    · intro x hx
      rcases List.mem_cons.1 hx with rfl | hx
      · exact hq.head.2 c s .done
      · exact hran x hx
  | case3 parked acc pending b k rs hfull ih =>
    intro hp hpk s a s' hreach hq hrun
    rw [go_read hfull] at hrun
    cases hrun with
    | read hrun =>
      obtain ⟨hsleep, howed⟩ := hq.head
      cases hsleep with
      | read hk =>
        exact ih s hp hpk s a s' hreach (hq.step ⟨hk, fun c s₂ h => howed c s₂ (.read h)⟩ fun _ h => h)
          hrun
  | case4 parked acc pending b g k rs hfull ih =>
    intro hp hpk s a s' hreach hq hrun
    rw [go_write hfull] at hrun
    cases hrun with
    | write hrun =>
      obtain ⟨hsleep, howed⟩ := hq.head
      cases hsleep with
      | write hc hk =>
        exact ih hp hpk _ a s' (hreach.tail (.inl hc))
          (hq.step ⟨hk, fun c s₂ h => howed c s₂ (.write h)⟩ fun _ h => .head hc h) hrun
  | case5 parked acc pending b d r k rs hfull ihready ihpark =>
    intro hp hpk s a s' hreach hq hrun
    rw [go_wait hfull] at hrun
    obtain ⟨hsleep, howed⟩ := hq.head
    cases hsleep with
    | @wait _ t _ _ hr hk =>
      cases hrun with
      | read hrun =>
        beta_reduce at hrun
        split at hrun
        · next hready =>
          exact ihready hp hpk s a s' hreach
            (hq.step ⟨hk s, fun c s₂ h => howed c s₂ (.wait trivial hready h)⟩ fun _ h => h) hrun
        · -- the fiber waits: what follows its wait is owed from when its deadline has come
          have hpk' : ∀ p ∈ parked ++ [⟨b, some t, r, k⟩], st.OwesParked K R s₀ start p := by
            intro p hp'
            rcases List.mem_append.1 hp' with hp' | hp'
            · exact hpk p hp'
            · simp only [List.mem_singleton] at hp'
              subst hp'
              exact ⟨hr, fun s₁ => ⟨hk s₁, fun hdue c s₂ h =>
                howed c s₂ (.wait trivial (by simpa [hr] using hdue) h)⟩⟩
          obtain ⟨runs, hperm, ha, hran⟩ := ihpark hp hpk' s a s' hreach (hq.pop .refl) hrun
          refine ⟨runs, hperm.trans ?_, ha, hran⟩
          simpa [List.append_assoc] using
            (List.perm_append_singleton b (rs.map Prod.fst ++ parked.map Parked.item)).append_left pending
  | case6 parked acc pending b k rs hfull ih =>
    intro _ _ s a s' _ hq _
    cases hq.head.1
  | case7 acc pending hfull =>
    intro _ _ s a s' _ _ hrun
    rw [go_idle hfull] at hrun
    obtain ⟨rfl, rfl⟩ := Amid.done_iff.1 hrun
    -- with the buffer empty there is room, so every item has started
    have hnil : pending = [] := by
      cases pending with
      | nil => rfl
      | cons b rest => exact (hfull b rest rfl (room_nil limit)).elim
    exact ⟨[], by simp [hnil], rfl, by simp⟩
  | case8 acc pending p ps hfull ih =>
    intro hp hpk s a s' hreach _ hrun
    rw [go_sleep hfull] at hrun
    cases hrun with
    | @wait _ s₁ _ _ _ _ _ hmove hready hrest =>
      cases hrest with
      | read hrun =>
        -- no condition wakes the buffer, so a deadline has come, and every fiber woken is due
        beta_reduce at hready hrun
        have hcond : (p :: ps).any (·.ready s₁) = false := by
          simpa using fun q hq => (hpk q hq).1 s₁
        rw [hcond, Bool.false_or] at hready
        obtain ⟨e, he, hle⟩ := (Option.any_eq_true _ _).1 hready
        have hsome : ∃ q ∈ p :: ps, q.due (st.clock s₁) s₁ = true := by
          obtain ⟨q, hq, hqe⟩ := earliest_mem he
          exact ⟨q, hq, by simp [Parked.due, hqe, hle]⟩
        have hwoken : ∀ x ∈ (wake st.clock s₁ (p :: ps)).1, ∀ s₂, Relation.ReflTransGen K s₁ s₂ →
            st.Owes K R s₀ start s₂ x := by
          intro x hx s₂ hs₂
          have hs₂ := clock_le_of_reflTransGen hK hs₂
          obtain ⟨q, hq, rfl, hdue⟩ := mem_wake_fst _ _ _ hx
          obtain ⟨hqr, hq'⟩ := hpk q hq
          have hdl : q.deadline.any (· ≤ st.clock s₂) = true := by
            have := hdue hsome
            simp only [Parked.due, hqr, Bool.false_or] at this
            cases hd : q.deadline <;> simp_all
            omega
          exact ⟨(hq' s₂).1, (hq' s₂).2 hdl⟩
        obtain ⟨runs, hperm, ha, hran⟩ := ih s₁ hp (fun q hq => hpk q (mem_wake_snd _ _ _ hq)) s₁ a s'
          (hreach.tail (.inr hmove)) (.of_later hwoken .refl) hrun
        refine ⟨runs, hperm.trans ?_, ha, hran⟩
        simpa [List.append_assoc] using (wake_items st.clock s₁ (p :: ps)).append_left pending

/-- Every run of a buffer of fibers that sleep, amid any others, to its end is one run of each
item's fiber to its end, each begun in a state reached from the buffer's first by the fibers'
changes and the others' moves, with the answers folded in the order those runs ended. -/
theorem Amid.of_buffered (hK : ∀ s s', K s s' → st.clock s ≤ st.clock s') {items : List β}
    {init a : δ} {s s' : σ} (hstart : ∀ b ∈ items, ∀ s, st.Sleeper K s (start b))
    (h : st.Amid R s (Fiber.buffered limit start fold st.clock items init) a s') :
    ∃ runs : List (β × γ), (runs.map Prod.fst).Perm items ∧
      a = runs.foldl (fun a x => fold a x.2) init ∧ ∀ x ∈ runs, st.Ran K R s start x := by
  obtain ⟨runs, hperm, ha, hran⟩ :=
    Amid.of_go hK items [] [] init hstart (by simp) s a s' .refl ⟨by simp, by simp⟩ h
  exact ⟨runs, by simpa using hperm, ha, hran⟩

end Stage

end TierCache
