import TierCache.Proofs.Interleaving

/-!
# A ghost beside the state

A program over `σ` lifted to `σ × γ` leaves the ghost `γ` to steps of its own (`Fiber.lift`); every
run of a crowd is the shadow of a run with a ghost (`Crowd.Shadows.reach`), and what the ghost
records is a history of the run.
-/

namespace TierCache

variable {σ γ τ α β : Type}

namespace Fiber

/-- A program over `σ` run over `σ × γ`: each step acts on the first part and leaves the ghost
alone, and each read is followed by a step that changes nothing. -/
def lift (γ : Type) : Fiber σ α → Fiber (σ × γ) α
  | done a => done a
  | read k => read fun p => write (fun q => q) (lift γ (k p.1))
  | write g k => write (fun p => (g p.1, p.2)) (lift γ k)
  | wait d r k => wait d (fun p => r p.1) (lift γ k)
  | pass k => pass (lift γ k)

/-- A step that changes the ghost alone. -/
def note (u : γ → γ) : Fiber (σ × γ) Unit := write (fun p => (p.1, u p.2)) (done ())

theorem lift_bind (f : Fiber σ α) (g : α → Fiber σ β) :
    (f >>= g).lift γ = f.lift γ >>= fun a => (g a).lift γ := by
  show (f.bind g).lift γ = (f.lift γ).bind fun a => (g a).lift γ
  induction f with
  | done a => rfl
  | read k ih => exact congrArg read (funext fun p => congrArg (write _) (ih p.1))
  | write g' k ih => exact congrArg (write _) ih
  | wait d r k ih => exact congrArg (wait d _) ih
  | pass k ih => exact congrArg pass ih

theorem lift_pure (a : α) : (pure a : Fiber σ α).lift γ = pure a := rfl

theorem lift_forIn {xs : List β} {b : α} (f : β → α → Fiber σ (ForInStep α)) :
    (forIn xs b f).lift γ = forIn xs b fun x b => (f x b).lift γ := by
  induction xs generalizing b with
  | nil => rfl
  | cons x xs ih =>
    rw [List.forIn_cons, List.forIn_cons, lift_bind]
    congr 1
    funext step
    cases step with
    | done b => rfl
    | yield b => exact ih

/-- `Shadows F f`: the program `F` over `σ × γ` takes the steps of `f` on the first part, with
steps that change the ghost alone in between. -/
inductive Shadows : Fiber (σ × γ) α → Fiber σ α → Prop
  | done (a : α) : Shadows (done a) (done a)
  | read {K : σ × γ → Fiber (σ × γ) α} {k : σ → Fiber σ α} :
      (∀ p, Shadows (K p) (k p.1)) → Shadows (read K) (read k)
  | write {G : σ × γ → σ × γ} {K : Fiber (σ × γ) α} {g : σ → σ} {k : Fiber σ α} :
      (∀ p, (G p).1 = g p.1) → Shadows K k → Shadows (write G K) (write g k)
  | ghost {G : σ × γ → σ × γ} {K : Fiber (σ × γ) α} {f : Fiber σ α} :
      (∀ p, (G p).1 = p.1) → Shadows K f → Shadows (write G K) f
  | wait {d : Option Nat} {W : σ × γ → Bool} {K : Fiber (σ × γ) α} {r : σ → Bool} {k : Fiber σ α} :
      (∀ p, W p = r p.1) → Shadows K k → Shadows (wait d W K) (wait d r k)
  | pass {K : Fiber (σ × γ) α} {k : Fiber σ α} : Shadows K k → Shadows (pass K) (pass k)

/-- Whether two programs take the same kind of step next. -/
def SameStep : Fiber (σ × γ) α → Fiber σ α → Prop
  | done _, done _ | read _, read _ | write _ _, write _ _ | wait .., wait .. | pass _, pass _ => True
  | _, _ => False

theorem Shadows.lift (f : Fiber σ α) : Shadows (f.lift γ) f := by
  induction f with
  | done a => exact .done a
  | read k ih => exact .read fun p => .ghost (fun _ => rfl) (ih p.1)
  | write g k ih => exact .write (fun _ => rfl) ih
  | wait d r k ih => exact .wait (fun _ => rfl) ih
  | pass k ih => exact .pass ih

theorem sameStep_lift (f : Fiber σ α) : SameStep (f.lift γ) f := by
  cases f <;> trivial

theorem Shadows.bind {F : Fiber (σ × γ) α} {f : Fiber σ α} {G : α → Fiber (σ × γ) β}
    {g : α → Fiber σ β} (hf : Shadows F f) (hg : ∀ a, Shadows (G a) (g a)) :
    Shadows (F >>= G) (f >>= g) := by
  show Shadows (F.bind G) (f.bind g)
  induction hf with
  | done a => exact hg a
  | read _ ih => exact .read ih
  | write hw _ ih => exact .write hw ih
  | ghost hw _ ih => exact .ghost hw ih
  | wait hr _ ih => exact .wait hr ih
  | pass _ ih => exact .pass ih

theorem Shadows.note {K : Unit → Fiber (σ × γ) α} {f : Fiber σ α} (u : γ → γ) (hk : Shadows (K ()) f) :
    Shadows (note u >>= K) f :=
  .ghost (fun _ => rfl) hk

-- Giving way on both sides, or not at all, keeps the shadow.
theorem Shadows.resume {F : Fiber (σ × γ) α} {f : Fiber σ α} (hf : Shadows F f)
    (hsame : SameStep F f) : Shadows F.resume f.resume := by
  cases hf with
  | pass hk => exact hk
  -- a step of the ghost alone stands against a step that is not a giving way
  | ghost hw hk => cases f <;> first | exact (hsame : False).elim | exact .ghost hw hk
  | done a => exact .done a
  | read hk => exact .read hk
  | write hw hk => exact .write hw hk
  | wait hr hk => exact .wait hr hk

end Fiber

namespace Stage

/-- The stage with a ghost beside the state: the clock and the jobs are the state's, each batch of
jobs taken is noted in the ghost by `onJobs`, and each job starts as `launch'`. -/
def ghost (st : Stage σ τ) (onJobs : List τ → γ → γ) (launch' : τ → Fiber (σ × γ) Unit) :
    Stage (σ × γ) τ where
  clock p := st.clock p.1
  setClock p t := (st.setClock p.1 t, p.2)
  takeJobs p := ((st.takeJobs p.1).1, (st.takeJobs p.1).2, onJobs (st.takeJobs p.1).1 p.2)
  launch := launch'
  halted p := st.halted p.1

/-- A state that asks for no job. -/
def Idle (st : Stage σ τ) (s : σ) : Prop := st.takeJobs s = ([], s)

/-- What a stage must do for its runs to have shadows: taking the jobs leaves a state that asks for
none, moving the clock asks for none, and a batch of no jobs notes nothing. -/
structure Shadowable (st : Stage σ τ) (onJobs : List τ → γ → γ) (launch' : τ → Fiber (σ × γ) Unit) :
    Prop where
  takeJobs_idle : ∀ s, st.Idle (st.takeJobs s).2
  setClock_idle : ∀ s t, st.Idle s → st.Idle (st.setClock s t)
  onJobs_nil : ∀ g, onJobs [] g = g
  launch : ∀ j, Fiber.Shadows (launch' j) (st.launch j) ∧ Fiber.SameStep (launch' j) (st.launch j)

end Stage

/-! ## A turn and its shadow -/

namespace Fiber

open Stage

variable {st : Stage σ τ} {onJobs : List τ → γ → γ} {launch' : τ → Fiber (σ × γ) Unit}

theorem Shadows.rests {s : σ} {g : γ} {F : Fiber (σ × γ) α} {f : Fiber σ α} (hf : Shadows F f)
    (hsame : SameStep F f) (hrest : st.Rests s f) : (st.ghost onJobs launch').Rests (s, g) F := by
  cases hf with
  | done => trivial
  | pass => trivial
  | @wait d W K r k hr _ =>
    show (W (s, g) || d.any (· ≤ st.clock s)) = false
    rw [hr]
    exact hrest
  | read => exact hrest.elim
  | write => exact hrest.elim
  | ghost => cases f <;> first | exact (hsame : False).elim | exact (hrest : False).elim

-- After a step that changes the ghost alone, an idle state starts no job.
private theorem run_ghost_step {s : σ} {g : γ} {G : σ × γ → σ × γ} {K : Fiber (σ × γ) α}
    (hnone : ∀ g, onJobs [] g = g) (hidle : st.Idle s) (hg : ∀ p, (G p).1 = p.1) (n : Nat)
    (RG : List (Fiber (σ × γ) Unit)) :
    (st.ghost onJobs launch').run (n + 1) (s, g) ⟨RG, []⟩ (write G K) =
      (st.ghost onJobs launch').run n (s, (G (s, g)).2) ⟨RG, []⟩ K := by
  have htake : (st.ghost onJobs launch').takeJobs (G (s, g)) = ([], s, (G (s, g)).2) := by
    have hidle' : st.takeJobs s = ([], s) := hidle
    simp only [Stage.ghost, hg, hidle', hnone]
  rw [Stage.run, Stage.settle_of_waiting_nil, htake, List.map_nil, List.append_nil]

-- A fiber at rest after no step at all.
private theorem run_zero (s : σ × γ) (RG : List (Fiber (σ × γ) Unit)) (F : Fiber (σ × γ) α) :
    (st.ghost onJobs launch').run 0 s ⟨RG, []⟩ F = (s, ⟨RG ++ ([] : List τ).map launch', []⟩, F) := by
  rw [List.map_nil, List.append_nil]
  rfl

/-- A turn of a fiber from an idle state that ends at rest is shadowed by a turn of any fiber that
shadows it: the same state, the same jobs started, and fibers that still shadow each other. -/
theorem Shadows.run (hst : st.Shadowable onJobs launch') {F : Fiber (σ × γ) α} {f : Fiber σ α}
    (hf : Shadows F f) :
    ∀ {n : Nat} {s : σ} {R : List (Fiber σ Unit)} {s' : σ} {p' : Pool σ} {f' : Fiber σ α} (g : γ)
      (RG : List (Fiber (σ × γ) Unit)), st.Idle s → st.run n s ⟨R, []⟩ f = (s', p', f') →
      st.Rests s' f' →
      ∃ (m : Nat) (g' : γ) (jobs : List τ) (F' : Fiber (σ × γ) α), p' = ⟨R ++ jobs.map st.launch, []⟩ ∧
        (st.ghost onJobs launch').run m (s, g) ⟨RG, []⟩ F = ((s', g'), ⟨RG ++ jobs.map launch', []⟩, F') ∧
        Shadows F' f' ∧ SameStep F' f' ∧ st.Idle s' := by
  -- induction on the shadow: a step of the ghost alone costs the shadow one more step
  induction hf with
  | done a =>
    intro n s R s' p' f' g RG hidle hrun _
    have hsame : (s', p', f') = (s, ⟨R, []⟩, Fiber.done a) := by
      rw [← hrun]
      cases n <;> rfl
    simp only [Prod.mk.injEq] at hsame
    obtain ⟨rfl, rfl, rfl⟩ := hsame
    exact ⟨0, g, [], _, by simp, run_zero _ _ _, .done a, trivial, hidle⟩
  | @read K k _ ih =>
    intro n s R s' p' f' g RG hidle hrun hrest
    cases n with
    | zero =>
      simp only [Stage.run, Prod.mk.injEq] at hrun
      obtain ⟨rfl, rfl, rfl⟩ := hrun
      exact hrest.elim
    | succ n =>
      obtain ⟨m, g', jobs, F', hp, hr, hsh, hsame, hidle'⟩ := ih (s, g) g RG hidle hrun hrest
      exact ⟨m + 1, g', jobs, F', hp, hr, hsh, hsame, hidle'⟩
  | @write G K w k hw _ ih =>
    intro n s R s' p' f' g RG hidle hrun hrest
    cases n with
    | zero =>
      simp only [Stage.run, Prod.mk.injEq] at hrun
      obtain ⟨rfl, rfl, rfl⟩ := hrun
      exact hrest.elim
    | succ n =>
      -- the change and the jobs it asks for are the same on both sides
      rw [Stage.run, Stage.settle_of_waiting_nil] at hrun
      obtain ⟨m, g', jobs, F', hp, hr, hsh, hsame, hidle'⟩ :=
        ih (onJobs (st.takeJobs (w s)).1 (G (s, g)).2) (RG ++ (st.takeJobs (w s)).1.map launch')
          (hst.takeJobs_idle _) hrun hrest
      refine ⟨m + 1, g', (st.takeJobs (w s)).1 ++ jobs, F', by simp [hp], ?_, hsh, hsame, hidle'⟩
      have hpair : G (s, g) = (w s, (G (s, g)).2) := Prod.ext (hw _) rfl
      rw [Stage.run, Stage.settle_of_waiting_nil, hpair]
      simpa [Stage.ghost] using hr
  | @ghost G K f' hw _ ih =>
    intro n s R s' p' f'' g RG hidle hrun hrest
    obtain ⟨m, g', jobs, F', hp, hr, hsh, hsame, hidle'⟩ :=
      ih (G (s, g)).2 RG hidle hrun hrest
    refine ⟨m + 1, g', jobs, F', hp, ?_, hsh, hsame, hidle'⟩
    rw [run_ghost_step hst.onJobs_nil hidle hw]
    exact hr
  | @wait d W K r k hr _ ih =>
    intro n s R s' p' f' g RG hidle hrun hrest
    cases n with
    | zero =>
      simp only [Stage.run, Prod.mk.injEq] at hrun
      obtain ⟨rfl, rfl, rfl⟩ := hrun
      exact ⟨0, g, [], _, by simp, run_zero _ _ _, .wait hr ‹_›, trivial, hidle⟩
    | succ n =>
      by_cases hready : (r s || d.any (· ≤ st.clock s)) = true
      · rw [Stage.run, if_pos hready] at hrun
        obtain ⟨m, g', jobs, F', hp, hrun', hsh, hsame, hidle'⟩ := ih g RG hidle hrun hrest
        refine ⟨m + 1, g', jobs, F', hp, ?_, hsh, hsame, hidle'⟩
        have hready' : (W (s, g) || d.any (· ≤ (st.ghost onJobs launch').clock (s, g))) = true := by
          show (W (s, g) || d.any (· ≤ st.clock s)) = true
          rw [hr]
          exact hready
        rw [Stage.run, if_pos hready']
        exact hrun'
      · rw [Stage.run, if_neg hready] at hrun
        simp only [Prod.mk.injEq] at hrun
        obtain ⟨rfl, rfl, rfl⟩ := hrun
        exact ⟨0, g, [], _, by simp, run_zero _ _ _, .wait hr ‹_›, trivial, hidle⟩
  | @pass K k hk _ =>
    intro n s R s' p' f' g RG hidle hrun _
    have hsame : (s', p', f') = (s, ⟨R, []⟩, Fiber.pass k) := by
      rw [← hrun]
      cases n <;> rfl
    simp only [Prod.mk.injEq] at hsame
    obtain ⟨rfl, rfl, rfl⟩ := hsame
    exact ⟨0, g, [], _, by simp, run_zero _ _ _, .pass hk, trivial, hidle⟩

end Fiber

/-! ## Runs and their shadows -/

namespace Crowd

open TierCache.Fiber

variable {st : Stage σ τ} {onJobs : List τ → γ → γ} {launch' : τ → Fiber (σ × γ) Unit}

/-- A crowd with a ghost that does what a crowd does: its state is the crowd's with a ghost
beside it, the crowd's state asks for no job, and each of its fibers shadows the crowd's fiber
in the same place, with the same kind of step next. -/
def Shadows (st : Stage σ τ) (C : Crowd (σ × γ)) (c : Crowd σ) : Prop :=
  C.state.1 = c.state ∧ st.Idle c.state ∧
    List.Forall₂ (fun F f => Fiber.Shadows F f ∧ SameStep F f) C.fibers c.fibers

private theorem forall₂_set_rel {R : α → β → Prop} {as : List α} {bs : List β}
    (h : List.Forall₂ R as bs) {i : Nat} {a : α} {b : β} (hab : R a b) :
    List.Forall₂ R (as.set i a) (bs.set i b) := by
  induction h generalizing i with
  | nil => exact .nil
  | cons hxy _ ih =>
    cases i with
    | zero => exact .cons hab ‹_›
    | succ i => exact .cons hxy ih

theorem Shadows.move (hst : st.Shadowable onJobs launch') {C : Crowd (σ × γ)} {c c' : Crowd σ}
    (hsh : C.Shadows st c) (hm : Stage.Move st c c') :
    ∃ C', Stage.Move (st.ghost onJobs launch') C C' ∧ C'.Shadows st c' := by
  obtain ⟨hstate, hidle, hfibers⟩ := hsh
  cases hm with
  | @turn i n s p f hi hrun hrest =>
    have hI : i < C.fibers.length := hfibers.length_eq ▸ hi
    obtain ⟨hshi, hsamei⟩ := hfibers.get hI hi
    obtain ⟨m, g', jobs, F', hp, hr, hsh', hsame', hidle'⟩ :=
      (hshi.resume hsamei).run hst C.state.2 [] hidle hrun hrest
    subst hp
    have hrun' : (st.ghost onJobs launch').run m C.state {} C.fibers[i].resume =
        ((s, g'), ⟨[] ++ jobs.map launch', []⟩, F') := by
      rw [← hr, ← hstate]
      rfl
    refine ⟨_, .turn hI hrun' (hsh'.rests hsame' hrest), rfl, hidle', ?_⟩
    refine List.rel_append (forall₂_set_rel hfibers ⟨hsh', hsame'⟩) ?_
    simp only [List.nil_append, List.forall₂_map_left_iff, List.forall₂_map_right_iff]
    exact List.forall₂_same.2 fun j _ => hst.launch j
  | @tick t ht =>
    refine ⟨⟨(st.setClock c.state t, C.state.2), C.fibers⟩, ?_, rfl, hst.setClock_idle _ _ hidle, hfibers⟩
    have htick : Stage.Move (st.ghost onJobs launch') C
        ⟨(st.ghost onJobs launch').setClock C.state t, C.fibers⟩ :=
      .tick (by simpa [Stage.ghost, hstate] using ht)
    simpa [Stage.ghost, hstate] using htick

/-- Every run of a crowd is the shadow of a run of a crowd with a ghost. -/
theorem Shadows.reach (hst : st.Shadowable onJobs launch') {C : Crowd (σ × γ)} {c c' : Crowd σ}
    (hsh : C.Shadows st c) (hr : Relation.ReflTransGen (Stage.Move st) c c') :
    ∃ C', Relation.ReflTransGen (Stage.Move (st.ghost onJobs launch')) C C' ∧ C'.Shadows st c' := by
  induction hr with
  | refl => exact ⟨C, .refl, hsh⟩
  | tail _ hm ih =>
    obtain ⟨C₁, hr₁, hsh₁⟩ := ih
    obtain ⟨C₂, hm₂, hsh₂⟩ := hsh₁.move hst hm
    exact ⟨C₂, hr₁.tail hm₂, hsh₂⟩

end Crowd

end TierCache
