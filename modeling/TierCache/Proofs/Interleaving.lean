import TierCache.Tasks.Pool
import Mathlib.Data.Multiset.AddSub
import Mathlib.Data.List.Perm.Basic
import Mathlib.Data.List.Forall2
import Mathlib.Logic.Relation

/-!
# Fibers taking turns in any order

The fibers of a crowd take turns in any order while the clock moves between them (`Stage.Move`).
Each fiber holds a share, and an invariant relates the state to all the shares (`Sharing`).

Main statement: `Crowd.Good.reach`.
-/

namespace TierCache

variable {σ τ ω α β : Type}

namespace Fiber

/-- What a resting fiber does when its turn comes: one that gave way goes on. -/
def resume : Fiber σ α → Fiber σ α
  | .pass k => k
  | f => f

end Fiber

/-- Fibers taking turns over one state. -/
structure Crowd (σ : Type) where
  state : σ
  fibers : List (Fiber σ Unit)

namespace Stage

variable (st : Stage σ τ)

/-- Whether a fiber has come to rest in `s`: it has ended, gives way, or waits for what has not
happened. -/
def Rests (s : σ) : Fiber σ α → Prop
  | .done _ | .pass _ => True
  | .wait d r _ => (r s || d.any (· ≤ st.clock s)) = false
  | _ => False

/-- One move of a crowd: a fiber takes a turn until it rests and the jobs it asked for join the
crowd, or the clock moves forward. -/
inductive Move : Crowd σ → Crowd σ → Prop
  | turn {c : Crowd σ} {i n : Nat} {s : σ} {p : Pool σ} {f : Fiber σ Unit}
      (hi : i < c.fibers.length) (hrun : st.run n c.state {} c.fibers[i].resume = (s, p, f))
      (hrest : st.Rests s f) : Move c ⟨s, c.fibers.set i f ++ p.ready⟩
  | tick {c : Crowd σ} {t : Nat} (ht : st.clock c.state ≤ t) :
      Move c ⟨st.setClock c.state t, c.fibers⟩

-- With no fiber waiting, settling only starts the jobs asked for.
theorem settle_of_waiting_nil (s : σ) (R : List (Fiber σ Unit)) :
    st.settle s ⟨R, []⟩ = ((st.takeJobs s).2, ⟨R ++ (st.takeJobs s).1.map st.launch, []⟩) := by
  simp [settle]

end Stage

/-- How the fibers of a stage share its state: the invariant between the state and the shares of
all the fibers, the share a job starts with, the jobs a fiber may ask for, and what a fiber holds
when it has ended. -/
structure Sharing (σ τ ω : Type) where
  Inv : σ → Multiset ω → Prop
  hold : τ → ω
  Spawnable : τ → Prop
  Ended : ω → Prop

namespace Stage

variable (st : Stage σ τ) (L : Sharing σ τ ω)

/-- A change `g` made in `s` by a fiber that held `o` and then holds `o'` keeps the invariant
whatever the others hold; the jobs it asks for may be asked for, and start with their shares. -/
def Keeps (o : ω) (g : σ → σ) (s : σ) (o' : ω) : Prop :=
  ∀ M, L.Inv s (o ::ₘ M) →
    (∀ j ∈ (st.takeJobs (g s)).1, L.Spawnable j) ∧
      L.Inv (st.takeJobs (g s)).2 (o' ::ₘ (M + ↑((st.takeJobs (g s)).1.map L.hold)))

/-- `Runs Q o s f`: the fiber `f`, holding `o` in `s`, keeps the invariant at every change it makes
and ends in `Q`. At a wait or a gives-way the state may have moved anywhere the invariant allows;
a fiber that wakes may hold another share then, as long as the invariant stays. -/
inductive Runs {α : Type} (Q : α → ω → σ → Prop) : ω → σ → Fiber σ α → Prop
  | done {a o s} : Q a o s → Runs Q o s (.done a)
  | read {k o s} : Runs Q o s (k s) → Runs Q o s (.read k)
  | write {g k o s} (o' : ω) : st.Keeps L o g s o' → Runs Q o' (st.takeJobs (g s)).2 k →
      Runs Q o s (.write g k)
  | wait {d r k o s} (o' : σ → ω)
      (keeps : ∀ s' M, L.Inv s' (o ::ₘ M) → (r s' || d.any (· ≤ st.clock s')) = true →
        L.Inv s' (o' s' ::ₘ M))
      (next : ∀ s' M, L.Inv s' (o ::ₘ M) → (r s' || d.any (· ≤ st.clock s')) = true →
        Runs Q (o' s') s' k) :
      Runs Q o s (.wait d r k)
  | pass {k o s} : (∀ s' M, L.Inv s' (o ::ₘ M) → Runs Q o s' k) → Runs Q o s (.pass k)

variable {st L}
variable {Q : α → ω → σ → Prop} {o : ω} {s : σ}

theorem Runs.bind {Q' : β → ω → σ → Prop} {f : Fiber σ α} {g : α → Fiber σ β}
    (hf : st.Runs L Q o s f) (hg : ∀ a o' s', Q a o' s' → st.Runs L Q' o' s' (g a)) :
    st.Runs L Q' o s (f.bind g) := by
  induction hf with
  | done hq => exact hg _ _ _ hq
  | read _ ih => exact .read ih
  | write o' hk _ ih => exact .write o' hk ih
  | wait o' keeps _ ih => exact .wait o' keeps ih
  | pass _ ih => exact .pass ih

theorem Runs.mono {Q' : α → ω → σ → Prop} {f : Fiber σ α} (hf : st.Runs L Q o s f)
    (hQ : ∀ a o s, Q a o s → Q' a o s) : st.Runs L Q' o s f := by
  induction hf with
  | done hq => exact .done (hQ _ _ _ hq)
  | read _ ih => exact .read ih
  | write o' hk _ ih => exact .write o' hk ih
  | wait o' keeps _ ih => exact .wait o' keeps ih
  | pass _ ih => exact .pass ih

-- A fiber that gives way goes on from wherever the others left the state.
theorem Runs.resume {M : Multiset ω} {f : Fiber σ α} (hf : st.Runs L Q o s f)
    (hI : L.Inv s (o ::ₘ M)) : st.Runs L Q o s f.resume := by
  cases hf with
  | pass hk => exact hk s M hI
  | done hq => exact .done hq
  | read hk => exact .read hk
  | write o' hk hr => exact .write o' hk hr
  | wait o' keeps next => exact .wait o' keeps next

theorem Runs.modifyGet {F : σ → α × σ} {o' : ω} (hk : st.Keeps L o (fun _ => (F s).2) s o')
    (hq : Q (F s).1 o' (st.takeJobs (F s).2).2) : st.Runs L Q o s (Fiber.modifyGet F) :=
  .read (.write o' hk (.done hq))

theorem Runs.modify {Q : Unit → ω → σ → Prop} {g : σ → σ} {o' : ω} (hk : st.Keeps L o g s o')
    (hq : Q () o' (st.takeJobs (g s)).2) : st.Runs L Q o s (Fiber.modify g) :=
  .write o' hk (.done hq)

/-! ## A turn keeps the invariant -/

/-- A turn of a fiber that runs safely keeps the invariant: the fiber rests holding a new share,
and each job it asked for was allowed and joins with its own share. -/
-- A turn that stops at once starts no job and leaves the share where it was.
private theorem Runs.stop {M : Multiset ω} {R : List (Fiber σ Unit)} {f : Fiber σ α}
    (hf : st.Runs L Q o s f) (hI : L.Inv s (o ::ₘ M)) :
    ∃ (o' : ω) (jobs : List τ), (⟨R, []⟩ : Pool σ) = ⟨R ++ jobs.map st.launch, []⟩ ∧
      (∀ j ∈ jobs, L.Spawnable j) ∧ L.Inv s (o' ::ₘ (M + ↑(jobs.map L.hold))) ∧ st.Runs L Q o' s f :=
  ⟨o, [], by simp, by simp, by simpa using hI, hf⟩

theorem Runs.run {n : Nat} {M : Multiset ω} {R : List (Fiber σ Unit)} {s' : σ} {p : Pool σ}
    {f f' : Fiber σ α} (hf : st.Runs L Q o s f) (hI : L.Inv s (o ::ₘ M))
    (hrun : st.run n s ⟨R, []⟩ f = (s', p, f')) :
    ∃ (o' : ω) (jobs : List τ), p = ⟨R ++ jobs.map st.launch, []⟩ ∧ (∀ j ∈ jobs, L.Spawnable j) ∧
      L.Inv s' (o' ::ₘ (M + ↑(jobs.map L.hold))) ∧ st.Runs L Q o' s' f' := by
  -- the fuel bounds the steps of the turn; each step is one constructor of `Runs`
  induction n generalizing o s M R f with
  | zero =>
    simp only [Stage.run, Prod.mk.injEq] at hrun
    obtain ⟨rfl, rfl, rfl⟩ := hrun
    exact hf.stop hI
  | succ n ih =>
    cases hf with
    | done hq =>
      simp only [Stage.run, Prod.mk.injEq] at hrun
      obtain ⟨rfl, rfl, rfl⟩ := hrun
      exact (Runs.done hq).stop hI
    | read hk => exact ih hk hI hrun
    | @write g k _ _ o₁ hkeep hk =>
      obtain ⟨hspawn, hI₁⟩ := hkeep M hI
      rw [Stage.run, Stage.settle_of_waiting_nil] at hrun
      obtain ⟨o', jobs, rfl, hjobs, hI', hr⟩ := ih hk hI₁ hrun
      refine ⟨o', (st.takeJobs (g s)).1 ++ jobs, by simp, ?_, ?_, hr⟩
      · intro j hj
        rcases List.mem_append.1 hj with hj | hj
        exacts [hspawn j hj, hjobs j hj]
      · simpa [Multiset.add_assoc] using hI'
    | wait o₁ keeps next =>
      rw [Stage.run] at hrun
      split at hrun
      · next hready => exact ih (next s M hI hready) (keeps s M hI hready) hrun
      · simp only [Prod.mk.injEq] at hrun
        obtain ⟨rfl, rfl, rfl⟩ := hrun
        exact (Runs.wait o₁ keeps next).stop hI
    | pass hk =>
      simp only [Stage.run, Prod.mk.injEq] at hrun
      obtain ⟨rfl, rfl, rfl⟩ := hrun
      exact (Runs.pass hk).stop hI

/-! ## Crowds -/

variable (st L)

/-- A fiber that runs safely from `o` whenever its turn comes, whatever the state then. -/
def Poised (o : ω) (f : Fiber σ Unit) : Prop :=
  ∀ s M, L.Inv s (o ::ₘ M) → st.Runs L (fun _ o _ => L.Ended o) o s f.resume

variable {st L}

-- A fiber at rest depends on the state no more: its next step is taken on whatever state it finds,
-- as long as what it ends in does not look at the state.
theorem Runs.rest {P : α → ω → Prop} {f : Fiber σ α} (hf : st.Runs L (fun a o _ => P a o) o s f)
    (hrest : st.Rests s f) :
    ∀ s' M, L.Inv s' (o ::ₘ M) → st.Runs L (fun a o _ => P a o) o s' f.resume := by
  intro s' M hI
  cases hf with
  | done hq => exact .done hq
  | pass hk => exact hk s' M hI
  | wait o' keeps next => exact .wait o' keeps next
  | read => exact hrest.elim
  | write => exact hrest.elim

theorem Runs.poised {f : Fiber σ Unit} (hf : st.Runs L (fun _ o _ => L.Ended o) o s f)
    (hrest : st.Rests s f) : st.Poised L o f :=
  hf.rest hrest

private theorem forall₂_set {R : ω → Fiber σ Unit → Prop} {os : List ω} {fs : List (Fiber σ Unit)}
    (h : List.Forall₂ R os fs) {i : Nat} {o : ω} {f : Fiber σ Unit} (hof : R o f) :
    List.Forall₂ R (os.set i o) (fs.set i f) := by
  induction h generalizing i with
  | nil => exact .nil
  | cons hab _ ih =>
    cases i with
    | zero => exact .cons hof ‹_›
    | succ i => exact .cons hab ih

-- The jobs a turn asked for join poised, each with the share it was handed.
private theorem forall₂_jobs (hjobs : ∀ j, L.Spawnable j → st.Poised L (L.hold j) (st.launch j))
    {jobs : List τ} (hspawn : ∀ j ∈ jobs, L.Spawnable j) :
    List.Forall₂ (st.Poised L) (jobs.map L.hold) (([] : List (Fiber σ Unit)) ++ jobs.map st.launch) := by
  simp only [List.nil_append, List.forall₂_map_left_iff, List.forall₂_map_right_iff]
  exact List.forall₂_same.2 fun j hj => hjobs j (hspawn j hj)

/-- A turn of one fiber of a list keeps the fibers of the list poised and the invariant, whatever
the shares `F` held outside the list. -/
theorem Poised.turn {F : Multiset ω} {os : List ω} {fs : List (Fiber σ Unit)}
    {s₀ s : σ} {i n : Nat} {p : Pool σ} {f : Fiber σ Unit}
    (hjobs : ∀ j, L.Spawnable j → st.Poised L (L.hold j) (st.launch j))
    (hF : List.Forall₂ (st.Poised L) os fs) (hI : L.Inv s₀ (F + ↑os)) (hi : i < fs.length)
    (hrun : st.run n s₀ {} fs[i].resume = (s, p, f)) (hrest : st.Rests s f) :
    ∃ os' : List ω, List.Forall₂ (st.Poised L) os' (fs.set i f ++ p.ready) ∧ L.Inv s (F + ↑os') := by
  have hlen : i < os.length := hF.length_eq ▸ hi
  -- the fiber taking its turn holds `os[i]`, the others of the list the rest
  have hos : (↑os : Multiset ω) = os[i] ::ₘ ↑(os.eraseIdx i) := by
    simpa using (List.getElem_cons_eraseIdx_perm hlen).symm
  have hperm : F + ↑os = os[i] ::ₘ (F + ↑(os.eraseIdx i)) := by rw [hos, Multiset.add_cons]
  have hpoised : st.Poised L os[i] fs[i] := hF.get hlen hi
  obtain ⟨o', jobs, rfl, hspawn, hI', hr⟩ :=
    (hpoised s₀ _ (hperm ▸ hI)).run (hperm ▸ hI) hrun
  refine ⟨os.set i o' ++ jobs.map L.hold, List.rel_append (forall₂_set hF (hr.poised hrest))
    (forall₂_jobs hjobs hspawn), ?_⟩
  have hset : (↑(os.set i o') : Multiset ω) = o' ::ₘ ↑(os.eraseIdx i) := by
    simpa using List.set_perm_cons_eraseIdx hlen o'
  have heq : F + ↑(os.set i o' ++ jobs.map L.hold) =
      o' ::ₘ (F + ↑(os.eraseIdx i) + ↑(jobs.map L.hold)) := by
    rw [← Multiset.coe_add, hset, Multiset.cons_add, Multiset.add_cons, Multiset.add_assoc]
  rw [heq]
  exact hI'

end Stage

namespace Crowd

variable (st : Stage σ τ) (L : Sharing σ τ ω)

/-- The shares of a crowd's fibers account for its state, and every fiber runs safely from its
own. -/
def Good (c : Crowd σ) : Prop :=
  ∃ os : List ω, List.Forall₂ (st.Poised L) os c.fibers ∧ L.Inv c.state ↑os

variable {st L}

theorem Good.move {c c' : Crowd σ}
    (hjobs : ∀ j, L.Spawnable j → st.Poised L (L.hold j) (st.launch j))
    (hclock : ∀ s t S, st.clock s ≤ t → L.Inv s S → L.Inv (st.setClock s t) S)
    (hc : c.Good st L) (hm : st.Move c c') : c'.Good st L := by
  obtain ⟨os, hF, hI⟩ := hc
  cases hm with
  | turn hi hrun hrest =>
    obtain ⟨os', hF', hI'⟩ :=
      Stage.Poised.turn hjobs hF (show L.Inv c.state (0 + ↑os) by simpa using hI) hi hrun hrest
    exact ⟨os', hF', by simpa using hI'⟩
  | tick ht => exact ⟨os, hF, hclock _ _ _ ht hI⟩

-- Every crowd reached from a good one is good.
theorem Good.reach {c c' : Crowd σ}
    (hjobs : ∀ j, L.Spawnable j → st.Poised L (L.hold j) (st.launch j))
    (hclock : ∀ s t S, st.clock s ≤ t → L.Inv s S → L.Inv (st.setClock s t) S)
    (hc : c.Good st L) (hreach : Relation.ReflTransGen st.Move c c') : c'.Good st L := by
  induction hreach with
  | refl => exact hc
  | tail _ hm ih => exact ih.move hjobs hclock hm

end Crowd

/-! ## Programs safe from any state -/

namespace Stage

variable (st : Stage σ τ) (L : Sharing σ τ ω)

/-- From any state the shares account for, the fiber holding `o` keeps the invariant and ends in
`Q`, the shares still accounting for the state. -/
def Holds (Q : α → ω → Prop) (o : ω) (F : Fiber σ α) : Prop :=
  ∀ s M, L.Inv s (o ::ₘ M) → st.Runs L (fun a o' s' => Q a o' ∧ ∃ M', L.Inv s' (o' ::ₘ M')) o s F

variable {st L} {Q : α → ω → Prop} {o : ω} {F : Fiber σ α}

theorem Holds.bind {Q' : β → ω → Prop} {G : α → Fiber σ β} (hF : st.Holds L Q o F)
    (hG : ∀ a o', Q a o' → st.Holds L Q' o' (G a)) : st.Holds L Q' o (F.bind G) :=
  fun s M hI => (hF s M hI).bind fun a o' s' ⟨hq, M', hI'⟩ => hG a o' hq s' M' hI'

theorem holds_pure {a : α} (hq : Q a o) : st.Holds L Q o (.done a) :=
  fun _ M hI => .done ⟨hq, M, hI⟩

theorem Holds.mono {Q' : α → ω → Prop} (hF : st.Holds L Q o F) (hQ : ∀ a o', Q a o' → Q' a o') :
    st.Holds L Q' o F :=
  fun s M hI => (hF s M hI).mono fun a o' _ ⟨hq, hI'⟩ => ⟨hQ a o' hq, hI'⟩

/-- A loop keeps `I` of the elements it has done while it goes on, and ends with `E` when a round
stops it. -/
theorem Holds.forIn {γ : Type} {xs : List γ} {b : β} {f : γ → β → Fiber σ (ForInStep β)}
    (I : List γ → β → ω → Prop) (E : β → ω → Prop)
    (hf : ∀ ys x zs b o', xs = ys ++ x :: zs → I ys b o' →
      st.Holds L (fun step o'' => match step with
        | .yield b' => I (ys ++ [x]) b' o''
        | .done b' => E b' o'') o' (f x b))
    (h0 : I [] b o) : st.Holds L (fun b' o' => I xs b' o' ∨ E b' o') o (forIn xs b f) := by
  -- induction on the elements still to do, those done so far kept in `ys`
  suffices h : ∀ zs ys b o, xs = ys ++ zs → I ys b o →
      st.Holds L (fun b' o' => I xs b' o' ∨ E b' o') o (ForIn.forIn zs b f) from h xs [] b o rfl h0
  intro zs
  induction zs with
  | nil =>
    intro ys b o hxs hI
    rw [List.append_nil] at hxs
    subst hxs
    exact holds_pure (.inl hI)
  | cons x zs ih =>
    intro ys b o hxs hI
    rw [List.forIn_cons]
    refine (hf ys x zs b o hxs hI).bind fun step o' hstep => ?_
    cases step with
    | done b' => exact holds_pure (.inr hstep)
    | yield b' => exact ih (ys ++ [x]) b' o' (by simp [hxs]) hstep

theorem Holds.poised {F : Fiber σ Unit} (hF : st.Holds L (fun _ o => L.Ended o) o F) :
    st.Poised L o F :=
  fun s M hI => ((hF s M hI).resume hI).mono fun _ _ _ h => h.1

end Stage

/-! ## A program beside the jobs it starts -/

/-- A main program beside the fibers it has started, over one state. -/
structure Scene (σ α : Type) where
  state : σ
  main : Fiber σ α
  fibers : List (Fiber σ Unit)

namespace Stage

variable (st : Stage σ τ)

/-- One move of a scene: the main program takes a turn until it rests, the jobs it asked for
joining the others, or the other fibers make a move of their crowd. -/
inductive Step : Scene σ α → Scene σ α → Prop
  | main {c : Scene σ α} {n : Nat} {s : σ} {p : Pool σ} {f : Fiber σ α}
      (hrun : st.run n c.state {} c.main.resume = (s, p, f)) (hrest : st.Rests s f) :
      Step c ⟨s, f, c.fibers ++ p.ready⟩
  | others {c : Scene σ α} {c' : Crowd σ} (hm : st.Move ⟨c.state, c.fibers⟩ c') :
      Step c ⟨c'.state, c.main, c'.fibers⟩

/-- `Ends s f a s'`: started alone in `s`, the program `f` and the jobs it starts take their turns
in any order, the clock moving forward between turns as it likes, and the run reaches `s'` with
`f` ended in `a`. -/
def Ends (s : σ) (f : Fiber σ α) (a : α) (s' : σ) : Prop :=
  ∃ fs, Relation.ReflTransGen st.Step (⟨s, f, []⟩ : Scene σ α) ⟨s', .done a, fs⟩

end Stage

namespace Scene

variable (st : Stage σ τ) (L : Sharing σ τ ω)

/-- The shares of a scene account for its state; the main program runs safely from its own to an
answer `P` allows, and every other fiber runs safely from its own. -/
def Good (P : α → ω → Prop) (c : Scene σ α) : Prop :=
  ∃ (o : ω) (os : List ω),
    (∀ s M, L.Inv s (o ::ₘ M) → st.Runs L (fun a o _ => P a o) o s c.main.resume) ∧
      List.Forall₂ (st.Poised L) os c.fibers ∧ L.Inv c.state (o ::ₘ ↑os)

variable {st L} {P : α → ω → Prop}

theorem Good.step {c c' : Scene σ α}
    (hjobs : ∀ j, L.Spawnable j → st.Poised L (L.hold j) (st.launch j))
    (hclock : ∀ s t S, st.clock s ≤ t → L.Inv s S → L.Inv (st.setClock s t) S)
    (hc : c.Good st L P) (hm : st.Step c c') : c'.Good st L P := by
  obtain ⟨o, os, hmain, hF, hI⟩ := hc
  cases hm with
  | main hrun hrest =>
    -- the main program's turn: the jobs it asks for join the others with their shares
    obtain ⟨o', jobs, rfl, hspawn, hI', hr⟩ := (hmain c.state ↑os hI).run hI hrun
    exact ⟨o', os ++ jobs.map L.hold, hr.rest hrest,
      List.rel_append hF (Stage.forall₂_jobs hjobs hspawn), by simpa using hI'⟩
  | others hm =>
    cases hm with
    | turn hi hrun hrest =>
      -- another fiber's turn, the main program's share held aside
      obtain ⟨os', hF', hI'⟩ := Stage.Poised.turn hjobs hF
        (show L.Inv c.state ({o} + ↑os) by simpa using hI) hi hrun hrest
      exact ⟨o, os', hmain, hF', by simpa using hI'⟩
    | tick ht => exact ⟨o, os, hmain, hF, hclock _ _ _ ht hI⟩

-- Every scene reached from a good one is good.
theorem Good.reach {c c' : Scene σ α}
    (hjobs : ∀ j, L.Spawnable j → st.Poised L (L.hold j) (st.launch j))
    (hclock : ∀ s t S, st.clock s ≤ t → L.Inv s S → L.Inv (st.setClock s t) S)
    (hc : c.Good st L P) (hreach : Relation.ReflTransGen st.Step c c') : c'.Good st L P := by
  induction hreach with
  | refl => exact hc
  | tail _ hm ih => exact ih.step hjobs hclock hm

end Scene

namespace Stage

variable {st : Stage σ τ} {L : Sharing σ τ ω}

/-- A program that runs safely from its share to an answer `P` allows, beside jobs that run
safely from theirs, ends only with such an answer, and the invariant then still accounts for the
state. -/
theorem Runs.ends {P : α → ω → Prop} {o : ω} {s s' : σ} {f : Fiber σ α} {a : α}
    (hjobs : ∀ j, L.Spawnable j → st.Poised L (L.hold j) (st.launch j))
    (hclock : ∀ s t S, st.clock s ≤ t → L.Inv s S → L.Inv (st.setClock s t) S)
    (hf : ∀ s M, L.Inv s (o ::ₘ M) → st.Runs L (fun a o _ => P a o) o s f)
    (hI : L.Inv s {o}) (h : st.Ends s f a s') :
    ∃ (o' : ω) (S : Multiset ω), P a o' ∧ L.Inv s' (o' ::ₘ S) := by
  obtain ⟨fs, hreach⟩ := h
  have hgood : Scene.Good st L P ⟨s, f, []⟩ :=
    ⟨o, [], fun s M hI => (hf s M hI).resume hI, .nil, by simpa using hI⟩
  obtain ⟨o', os, hmain, -, hI'⟩ := hgood.reach hjobs hclock hreach
  have hdone : st.Runs L (fun a o _ => P a o) o' s' (.done a) := hmain s' ↑os hI'
  cases hdone with
  | done hq => exact ⟨o', ↑os, hq, hI'⟩

/-! ### Runs on fixed inputs

A run that a counterexample names is built turn by turn: each turn is computed, and that it ends
at rest is a test. -/

variable (st)

/-- Whether a fiber rests in `s`, as a test. -/
def rests (s : σ) : Fiber σ α → Bool
  | .done _ | .pass _ => true
  | .wait d r _ => !(r s || d.any (· ≤ st.clock s))
  | _ => false

variable {st}

theorem rests_iff {s : σ} {f : Fiber σ α} : st.rests s f = true ↔ st.Rests s f := by
  cases f <;> simp [rests, Rests]

end Stage

namespace Fiber

/-- Whether a fiber has ended, as a test. -/
def ended : Fiber σ α → Bool
  | .done _ => true
  | _ => false

end Fiber

namespace Crowd

variable (st : Stage σ τ)

/-- The crowd after the fiber at `i` takes a turn of at most `n` steps. -/
def turn (i n : Nat) (c : Crowd σ) : Crowd σ :=
  let r := st.run n c.state {} (c.fibers.getD i (.done ())).resume
  ⟨r.1, c.fibers.set i r.2.2 ++ r.2.1.ready⟩

variable {st} {c : Crowd σ}

theorem move_turn {i n : Nat} (hi : i < c.fibers.length)
    (h : st.rests (st.run n c.state {} (c.fibers.getD i (.done ())).resume).1
      (st.run n c.state {} (c.fibers.getD i (.done ())).resume).2.2 = true) :
    st.Move c (c.turn st i n) := by
  have hget : c.fibers.getD i (.done ()) = c.fibers[i] := (List.getElem_eq_getD _).symm
  rw [hget] at h
  simp only [turn, hget]
  exact .turn hi rfl (Stage.rests_iff.1 h)

end Crowd

namespace Scene

variable (st : Stage σ τ)

/-- The scene after the main program takes a turn of at most `n` steps. -/
def mainTurn (n : Nat) (c : Scene σ α) : Scene σ α :=
  let r := st.run n c.state {} c.main.resume
  ⟨r.1, r.2.2, c.fibers ++ r.2.1.ready⟩

/-- The scene after the fiber at `i` takes a turn of at most `n` steps. -/
def fiberTurn (i n : Nat) (c : Scene σ α) : Scene σ α :=
  let r := st.run n c.state {} (c.fibers.getD i (.done ())).resume
  ⟨r.1, c.main, c.fibers.set i r.2.2 ++ r.2.1.ready⟩

/-- The scene with its clock moved to `t`. -/
def tick (t : Nat) (c : Scene σ α) : Scene σ α := ⟨st.setClock c.state t, c.main, c.fibers⟩

variable {st} {c : Scene σ α}

theorem step_mainTurn {n : Nat} (h : st.rests (c.mainTurn st n).state (c.mainTurn st n).main = true) :
    st.Step c (c.mainTurn st n) :=
  .main rfl (Stage.rests_iff.1 h)

theorem step_fiberTurn {i n : Nat} (hi : i < c.fibers.length)
    (h : st.rests (st.run n c.state {} (c.fibers.getD i (.done ())).resume).1
      (st.run n c.state {} (c.fibers.getD i (.done ())).resume).2.2 = true) :
    st.Step c (c.fiberTurn st i n) :=
  .others (Crowd.move_turn (c := ⟨c.state, c.fibers⟩) hi h)

theorem step_tick {t : Nat} (ht : st.clock c.state ≤ t) : st.Step c (c.tick st t) :=
  .others (.tick ht)

/-- A move of a scene on fixed inputs: a turn of the main program, a turn of the fiber at `i`, or
the clock moved to `t`. -/
inductive Cue where
  | main
  | fiber (i : Nat)
  | tick (t : Nat)

variable (st)

/-- The scene after a cue, each turn of at most `n` steps. -/
def cue (n : Nat) (c : Scene σ α) : Cue → Scene σ α
  | .main => c.mainTurn st n
  | .fiber i => c.fiberTurn st i n
  | .tick t => c.tick st t

/-- Whether a cue is a move of the scene: a turn that ends at rest, of a fiber there is, or the
clock moving forward. -/
def cues (n : Nat) (c : Scene σ α) : Cue → Bool
  | .main => st.rests (c.mainTurn st n).state (c.mainTurn st n).main
  | .fiber i => decide (i < c.fibers.length) &&
      st.rests (st.run n c.state {} (c.fibers.getD i (.done ())).resume).1
        (st.run n c.state {} (c.fibers.getD i (.done ())).resume).2.2
  | .tick t => decide (st.clock c.state ≤ t)

/-- The scene after a list of cues. -/
def play (n : Nat) (c : Scene σ α) : List Cue → Scene σ α
  | [] => c
  | k :: ks => (c.cue st n k).play n ks

/-- Whether every cue of a list is a move of the scene it comes to. -/
def playable (n : Nat) (c : Scene σ α) : List Cue → Bool
  | [] => true
  | k :: ks => c.cues st n k && (c.cue st n k).playable n ks

variable {st}

theorem step_cue {n : Nat} {k : Cue} (h : c.cues st n k = true) : st.Step c (c.cue st n k) := by
  cases k with
  | main => exact step_mainTurn h
  | fiber i =>
    simp only [cues, Bool.and_eq_true, decide_eq_true_eq] at h
    exact step_fiberTurn h.1 h.2
  | tick t => exact step_tick (of_decide_eq_true h)

-- A playable list of cues is a path of moves.
theorem reach_play {n : Nat} {ks : List Cue} (h : c.playable st n ks = true) :
    Relation.ReflTransGen st.Step c (c.play st n ks) := by
  induction ks generalizing c with
  | nil => exact .refl
  | cons k ks ih =>
    simp only [playable, Bool.and_eq_true] at h
    exact .head (step_cue h.1) (ih h.2)

/-- The main program's answer, once it has ended. -/
def ended? (c : Scene σ α) : Option α :=
  match c.main with
  | .done a => some a
  | _ => none

-- A scene reached in which the main program has ended is the end of a run.
theorem ends_of_reach {s : σ} {f : Fiber σ α} {a : α}
    (hreach : Relation.ReflTransGen st.Step ⟨s, f, []⟩ c) (ha : c.ended? = some a) :
    st.Ends s f a c.state := by
  obtain ⟨state, main, fibers⟩ := c
  cases main <;> simp only [ended?, reduceCtorEq, Option.some.injEq] at ha
  subst ha
  exact ⟨fibers, hreach⟩

-- A playable list of cues after which the main program has ended is a run to its end.
theorem ends_play {s : σ} {f : Fiber σ α} {a : α} (n : Nat) (ks : List Cue)
    (h : (⟨s, f, []⟩ : Scene σ α).playable st n ks = true)
    (ha : ((⟨s, f, []⟩ : Scene σ α).play st n ks).ended? = some a) :
    st.Ends s f a ((⟨s, f, []⟩ : Scene σ α).play st n ks).state :=
  ends_of_reach (reach_play h) ha

-- The same, for an answer that can only be looked at, not compared: the run ends with whatever
-- the main program answered.
theorem ends_play_get {s : σ} {f : Fiber σ α} (n : Nat) (ks : List Cue)
    (h : (⟨s, f, []⟩ : Scene σ α).playable st n ks = true)
    (hend : ((⟨s, f, []⟩ : Scene σ α).play st n ks).ended?.isSome = true) :
    st.Ends s f ((((⟨s, f, []⟩ : Scene σ α).play st n ks).ended?).get hend)
      ((⟨s, f, []⟩ : Scene σ α).play st n ks).state :=
  ends_play n ks h (Option.some_get hend).symm

end Scene

namespace Stage

variable {st : Stage σ τ} {L : Sharing σ τ ω} {Q : α → ω → σ → Prop} {o : ω} {s : σ}

/-! ## Programs that stay within a relation -/

variable (st)

/-- Every change `f` makes, from the state it is made in, is one `P` allows. -/
inductive Within (P : σ → σ → Prop) : σ → Fiber σ α → Prop
  | done {a s} : Within P s (.done a)
  | read {k s} : Within P s (k s) → Within P s (.read k)
  | write {g k s} : P s (g s) → Within P (st.takeJobs (g s)).2 k → Within P s (.write g k)
  | wait {d r k s} : (∀ s', Within P s' k) → Within P s (.wait d r k)
  | pass {k s} : (∀ s', Within P s' k) → Within P s (.pass k)

variable {st}

theorem Within.bind {P : σ → σ → Prop} {f : Fiber σ α} {g : α → Fiber σ β}
    (hf : st.Within P s f) (hg : ∀ a s', st.Within P s' (g a)) : st.Within P s (f.bind g) := by
  induction hf with
  | done => exact hg _ _
  | read _ ih => exact .read ih
  | write hp _ ih => exact .write hp ih
  | wait _ ih => exact .wait ih
  | pass _ ih => exact .pass ih

theorem Within.mono {P P' : σ → σ → Prop} {f : Fiber σ α} (hf : st.Within P s f)
    (hP : ∀ s s', P s s' → P' s s') : st.Within P' s f := by
  induction hf with
  | done => exact .done
  | read _ ih => exact .read ih
  | write hp _ ih => exact .write (hP _ _ hp) ih
  | wait _ ih => exact .wait ih
  | pass _ ih => exact .pass ih

/-- A loop over a list stays within `P` when each of its rounds does, from any state and whatever
the loop has carried so far. -/
theorem Within.forIn {P : σ → σ → Prop} {γ : Type} {xs : List γ} {b : β}
    {f : γ → β → Fiber σ (ForInStep β)} (hf : ∀ x ∈ xs, ∀ b s, st.Within P s (f x b)) (s : σ) :
    st.Within P s (forIn xs b f) := by
  induction xs generalizing b s with
  | nil => exact .done
  | cons x xs ih =>
    rw [List.forIn_cons]
    refine (hf x List.mem_cons_self b s).bind fun step s' => ?_
    cases step with
    | done b' => exact .done
    | yield b' => exact ih (fun y hy => hf y (List.mem_cons_of_mem _ hy)) s'

-- A program whose every change keeps the invariant without moving its share runs safely from that
-- share.
theorem Runs.of_within {P : σ → σ → Prop} {f : Fiber σ α}
    (hkeep : ∀ s g, P s (g s) → st.Keeps L o g s o) (hq : ∀ a s, Q a o s)
    (hf : st.Within P s f) : st.Runs L Q o s f := by
  induction hf with
  | done => exact .done (hq _ _)
  | read _ ih => exact .read ih
  | write hp _ ih => exact .write o (hkeep _ _ hp) ih
  | wait _ ih => exact .wait (fun _ => o) (fun _ _ hI _ => hI) fun s' _ _ _ => ih s'
  | pass _ ih => exact .pass fun s' _ _ => ih s'

-- The same from every state the shares account for.
theorem Holds.of_within {P : σ → σ → Prop} {Q : α → ω → Prop} {f : Fiber σ α}
    (hkeep : ∀ s g, P s (g s) → st.Keeps L o g s o) (hq : ∀ a, Q a o) (hf : ∀ s, st.Within P s f) :
    st.Holds L Q o f := by
  intro s M hI
  have hw := hf s
  clear hf
  -- induction on the program's steps, the shares of the others generalized
  induction hw generalizing M with
  | done => exact .done ⟨hq _, M, hI⟩
  | read _ ih => exact .read (ih M hI)
  | write hp _ ih => exact .write o (hkeep _ _ hp) (ih _ ((hkeep _ _ hp) M hI).2)
  | wait _ ih => exact .wait (fun _ => o) (fun _ _ hI _ => hI) fun s' M' hI' _ => ih s' M' hI'
  | pass _ ih => exact .pass fun s' M' hI' => ih s' M' hI'

/-! ## A program run alone -/

variable (st)

/-- `Completes s f a s'`: run alone from `s`, the clock moving forward wherever it waits, `f` ends
with `a` in `s'`. -/
inductive Completes : σ → Fiber σ α → α → σ → Prop
  | done {s a} : Completes s (.done a) a s
  | read {s k a s'} : Completes s (k s) a s' → Completes s (.read k) a s'
  | write {s g k a s'} : Completes (st.takeJobs (g s)).2 k a s' → Completes s (.write g k) a s'
  | wait {s d r k a s'} (t : Nat) : st.clock s ≤ t →
      (r (st.setClock s t) || d.any (· ≤ st.clock (st.setClock s t))) = true →
      Completes (st.setClock s t) k a s' → Completes s (.wait d r k) a s'
  | pass {s k a s'} : Completes s k a s' → Completes s (.pass k) a s'

variable {st}

theorem Completes.of_bind {f : Fiber σ α} {g : α → Fiber σ β} {b : β} {s'' : σ}
    (h : st.Completes s (f.bind g) b s'') :
    ∃ a s', st.Completes s f a s' ∧ st.Completes s' (g a) b s'' := by
  induction f generalizing s with
  | done a => exact ⟨a, s, .done, h⟩
  | read k ih =>
    cases h with
    | read h =>
      obtain ⟨a, s', h₁, h₂⟩ := ih s h
      exact ⟨a, s', .read h₁, h₂⟩
  | write g' k ih =>
    cases h with
    | write h =>
      obtain ⟨a, s', h₁, h₂⟩ := ih h
      exact ⟨a, s', .write h₁, h₂⟩
  | wait d r k ih =>
    cases h with
    | wait t ht hr h =>
      obtain ⟨a, s', h₁, h₂⟩ := ih h
      exact ⟨a, s', .wait t ht hr h₁, h₂⟩
  | pass k ih =>
    cases h with
    | pass h =>
      obtain ⟨a, s', h₁, h₂⟩ := ih h
      exact ⟨a, s', .pass h₁, h₂⟩

theorem Completes.done_iff {a b : α} {s' : σ} :
    st.Completes s (.done a) b s' ↔ b = a ∧ s' = s := by
  constructor
  · rintro ⟨⟩
    exact ⟨rfl, rfl⟩
  · rintro ⟨rfl, rfl⟩
    exact .done

theorem Completes.modifyGet {F : σ → α × σ} {a : α} {s' : σ}
    (h : st.Completes s (Fiber.modifyGet F) a s') :
    a = (F s).1 ∧ s' = (st.takeJobs (F s).2).2 := by
  cases h with
  | read h =>
    cases h with
    | write h => exact Completes.done_iff.1 h

theorem Completes.modify {g : σ → σ} {s' : σ} (h : st.Completes s (Fiber.modify g) () s') :
    s' = (st.takeJobs (g s)).2 := by
  cases h with
  | write h => exact (Completes.done_iff.1 h).2

end Stage

end TierCache
