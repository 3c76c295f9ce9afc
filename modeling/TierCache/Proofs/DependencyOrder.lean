import TierCache.Proofs.GhostState
import TierCache.Proofs.MarkerKeys
import TierCache.Frame.Lz4Compress

/-!
# Dependencies are warmed before their dependents start

The history of warmed patterns is kept as a ghost beside the host (`Host.recorded`), and along every
run it vouches for every marker the cache holds (`Vouched`). The marker is written memory first, so
a dependent may start before its distributed write lands (`dependent_starts_before_marker_lands`).

Main statement: `dependencies_warmed_before_dispatch`.
-/

namespace TierCache

/-! ## The history of warming -/

/-- What the history of a run records: a job started, or a rule's refresh returned Ok. -/
inductive WarmEvent where
  | started (job : Job)
  | warmed (pattern : String)

namespace WarmEvent

/-- Whether an event may follow a history: a warming job starts only after a refresh of each of
its rule's dependencies returned Ok. -/
def Follows (log : List WarmEvent) : WarmEvent → Prop
  | started (.warm _ r _ _) => ∀ d ∈ r.dependencies, warmed d ∈ log
  | _ => True

theorem Follows.mono {log log' : List WarmEvent} {e : WarmEvent} (h : e.Follows log)
    (hsub : log ⊆ log') : e.Follows log' := by
  cases e with
  | warmed => trivial
  | started j =>
    cases j with
    | warm => exact fun d hd => hsub (h d hd)
    | writeBehind => trivial
    | loop => trivial

end WarmEvent

/-- A history in which every warming job started after a refresh of each of its rule's
dependencies returned Ok. -/
def DependenciesFirst (log : List WarmEvent) : Prop :=
  ∀ pre e post, log = pre ++ e :: post → e.Follows pre

theorem DependenciesFirst.nil : DependenciesFirst [] :=
  fun pre _ _ h => absurd h.symm (by simp)

theorem DependenciesFirst.append {log es : List WarmEvent} (h : DependenciesFirst log)
    (hes : ∀ e ∈ es, e.Follows log) : DependenciesFirst (log ++ es) := by
  intro pre e post heq
  rcases List.append_eq_append_iff.1 heq with ⟨mid, rfl, hmid⟩ | ⟨mid, hlog, hmid⟩
  · -- the event is one of the new ones, after all of `log`
    exact (hes e (by simp [hmid])).mono (List.subset_append_left _ _)
  · cases mid with
    | nil =>
      rw [List.append_nil] at hlog
      rw [List.nil_append] at hmid
      subst hlog hmid
      exact hes e List.mem_cons_self
    | cons e' mid =>
      obtain ⟨rfl, -⟩ := List.cons_eq_cons.1 hmid
      exact h pre e mid hlog

/-! ## The host with its history -/

namespace Act

/-- A warming job that notes in the history, as soon as its rule's refresh returned Ok, that its
pattern was warmed: the job the host runs, with that one note. -/
def warmJobNoted (id : Nat) (r : Rule) (now : Instant) (trigger : Option String) :
    Fiber (Host × List WarmEvent) Unit := do
  let started ← Act.now.lift _
  match ← (runRule r now trigger).lift _ with
  | .warmed items =>
    Fiber.note (· ++ [.warmed r.pattern])
    (markWarmed r.pattern now).lift _
    let t ← Act.now.lift _
    (changeWarmer (·.count (·.recordRun (some items) ((t - started) * 1000)))).lift _
  | .failed _ =>
    let t ← Act.now.lift _
    (changeWarmer (·.count (·.recordRun none ((t - started) * 1000)))).lift _
  | .died => pure ()
  (changeWarmer (·.finish id r.pattern)).lift _

theorem shadows_warmJobNoted (id : Nat) (r : Rule) (now : Instant) (trigger : Option String) :
    Fiber.Shadows (warmJobNoted id r now trigger) (warmJob id r now trigger) := by
  refine (Fiber.Shadows.lift _).bind fun started => (Fiber.Shadows.lift _).bind fun outcome => ?_
  extract_lets finishNoted finish
  have hfinish : ∀ u, Fiber.Shadows (finishNoted u) (finish u) := fun _ => Fiber.Shadows.lift _
  cases outcome with
  | warmed items =>
    exact .note _ ((Fiber.Shadows.lift _).bind fun _ => (Fiber.Shadows.lift _).bind fun _ =>
      (Fiber.Shadows.lift _).bind hfinish)
  | failed e => exact (Fiber.Shadows.lift _).bind fun _ => (Fiber.Shadows.lift _).bind hfinish
  | died => exact (Fiber.Shadows.done ()).bind hfinish

end Act

/-- Notes the jobs the stage starts. -/
def noteStarted (jobs : List Job) (log : List WarmEvent) : List WarmEvent := log ++ jobs.map .started

/-- A job run with the history beside it. -/
def launchNoted : Job → Fiber (Host × List WarmEvent) Unit
  | .warm id r now trigger => Act.warmJobNoted id r now trigger
  | j => (Act.launch j).lift _

/-- The host's stage with the history of warming beside it. -/
def Host.recorded : Stage (Host × List WarmEvent) Job := Host.stage.ghost noteStarted launchNoted

theorem recorded_shadowable : Host.stage.Shadowable noteStarted launchNoted where
  takeJobs_idle _ := rfl
  setClock_idle h t hidle := by
    have hnil : h.requested = [] := (Prod.ext_iff.1 hidle).1
    show (_, _) = (_, _)
    cases h
    simp_all [Host.stage]
  onJobs_nil _ := List.append_nil _
  launch j := by
    cases j with
    | warm id r now trigger => exact ⟨Act.shadows_warmJobNoted id r now trigger, trivial⟩
    | writeBehind => exact ⟨Fiber.Shadows.lift _, Fiber.sameStep_lift _⟩
    | loop => exact ⟨Fiber.Shadows.lift _, Fiber.sameStep_lift _⟩

theorem recorded_takeJobs (p : Host × List WarmEvent) :
    Host.recorded.takeJobs p = (p.1.requested, { p.1 with requested := [] }, noteStarted p.1.requested p.2) :=
  rfl

-- With no job asked for, taking the jobs changes nothing.
theorem recorded_takeJobs_idle {p : Host × List WarmEvent} (hp : p.1.requested = []) :
    (Host.recorded.takeJobs p).2 = p := by
  obtain ⟨h, log⟩ := p
  simp only at hp
  rw [recorded_takeJobs]
  cases h
  simp_all [noteStarted]

/-! ## What the history vouches for -/

/-- The history vouches for the host: no job is asked for and not started, the warming rules are
`reg`'s, every marker the cache holds, in either tier, belongs to a pattern whose refresh returned
Ok, and every warming job started after its rule's dependencies were warmed. -/
structure Vouched (reg : Registry) (h : Host) (log : List WarmEvent) : Prop where
  idle : h.requested = []
  registry : h.warmer.map (·.registry) = some reg
  markers : ∀ d, markerKey d ∈ h.cache.keys → .warmed d ∈ log
  ordered : DependenciesFirst log

/-- A job that writes no marker: a warming job whose refresh spares markers, or a write-behind
write of a key that is no marker. -/
def Job.SparesMarkers : Job → Prop
  | .warm _ r _ _ => r.refresh.SparesMarkers
  | .writeBehind key .. => ¬ IsMarker key
  | .loop _ => False

/-- How the fibers share the host with its history: each holds markers it has read, whose patterns
the history has seen warmed. Jobs start holding none. -/
def historyShares (reg : Registry) : Sharing (Host × List WarmEvent) Job (List String) where
  Inv p S := Vouched reg p.1 p.2 ∧ ∀ o ∈ S, ∀ d, markerKey d ∈ o → .warmed d ∈ p.2
  hold _ := []
  Spawnable := Job.SparesMarkers
  Ended _ := True

section Keeps

variable {reg : Registry} {o o' : List String} {p : Host × List WarmEvent}

theorem Job.sparesMarkers_of_behindPlain {j : Job} (hj : j.BehindPlain) : j.SparesMarkers := by
  cases j with
  | writeBehind => exact hj
  | warm => exact hj.elim
  | loop => exact hj.elim

-- The history vouches for a host after a step that keeps the registry, adds only keys the share
-- knows, and starts only jobs that may follow the history; the new share knows only what the old
-- one did or what the cache held.
theorem inv_after {h h' : Host} {log : List WarmEvent} {jobs : List Job} {M : Multiset (List String)}
    (hV : Vouched reg h log) (hS : ∀ o₁ ∈ o ::ₘ M, ∀ d, markerKey d ∈ o₁ → .warmed d ∈ log)
    (hidle : h'.requested = []) (hreg : h'.warmer.map (·.registry) = h.warmer.map (·.registry))
    (hkeys : ∀ k ∈ h'.cache.keys, k ∈ h.cache.keys ∨ Known o k)
    (ho' : ∀ k ∈ o', k ∈ o ∨ k ∈ h.cache.keys)
    (hjobs : ∀ j ∈ jobs, (WarmEvent.started j).Follows log) :
    (historyShares reg).Inv (h', noteStarted jobs log)
      (o' ::ₘ (M + ↑(jobs.map (historyShares reg).hold))) := by
  have hwarmed : ∀ d, markerKey d ∈ o → .warmed d ∈ log := hS o (Multiset.mem_cons_self _ _)
  have hlog : log ⊆ noteStarted jobs log := List.subset_append_left _ _
  refine ⟨⟨hidle, hreg.trans hV.registry, fun d hd => ?_, hV.ordered.append fun e he => ?_⟩,
    fun o₁ ho₁ d hd => ?_⟩
  · rcases hkeys _ hd with hd | hd
    · exact hlog (hV.markers d hd)
    · exact hlog (hwarmed d (hd (isMarker_markerKey d)))
  · obtain ⟨j, hj, rfl⟩ := List.mem_map.1 he
    exact hjobs j hj
  · rcases Multiset.mem_cons.1 ho₁ with rfl | ho₁
    · rcases ho' _ hd with hd | hd
      · exact hlog (hwarmed d hd)
      · exact hlog (hV.markers d hd)
    · rcases Multiset.mem_add.1 ho₁ with ho₁ | ho₁
      · exact hlog (hS o₁ (Multiset.mem_cons_of_mem ho₁) d hd)
      · simp only [Multiset.mem_coe, List.mem_map] at ho₁
        obtain ⟨_, _, rfl⟩ := ho₁
        cases hd

/-- A change of the host, made with the history beside it, keeps what the history vouches for when
it adds only keys the share knows, and the new share knows only what the old one did or what the
cache held. -/
theorem keeps_lifted {g : Host → Host} (hg : Host.Adds (Known o) p.1 (g p.1))
    (ho' : ∀ k ∈ o', k ∈ o ∨ k ∈ p.1.cache.keys) :
    Stage.Keeps Host.recorded (historyShares reg) o (fun q => (g q.1, q.2)) p o' := by
  rintro M ⟨hV, hS⟩
  -- the jobs asked for are write-behind writes of keys that are no markers
  have hjobs : ∀ j ∈ (g p.1).requested, j.BehindPlain := by
    intro j hj
    rcases hg.jobs j hj with hj | hj
    · rw [hV.idle] at hj
      cases hj
    · exact hj
  refine ⟨fun j hj => Job.sparesMarkers_of_behindPlain (hjobs j hj),
    inv_after hV hS rfl hg.registry hg.keys ho' fun j hj => ?_⟩
  cases j with
  | warm => exact (hjobs _ hj).elim
  | writeBehind => trivial
  | loop => trivial

/-- Asking for a warming job keeps what the history vouches for when the share holds the marker of
each of the rule's dependencies: the history notes the job's start after their warming. -/
theorem keeps_spawnWarm {id : Nat} {r : Rule} {now : Instant} {trigger : Option String}
    (hr : r.refresh.SparesMarkers) (hdeps : ∀ d ∈ r.dependencies, markerKey d ∈ o) :
    Stage.Keeps Host.recorded (historyShares reg) o
      (fun q => ({ q.1 with requested := q.1.requested ++ [.warm id r now trigger] }, q.2)) p o := by
  rintro M ⟨hV, hS⟩
  have hjobs : p.1.requested ++ [Job.warm id r now trigger] = [.warm id r now trigger] := by
    rw [hV.idle, List.nil_append]
  refine ⟨fun j hj => ?_, ?_⟩
  · dsimp only [recorded_takeJobs] at hj
    rw [hjobs, List.mem_singleton] at hj
    rw [hj]
    exact hr
  · dsimp only [recorded_takeJobs]
    rw [hjobs]
    exact inv_after hV hS rfl rfl (fun k hk => .inl hk) (fun k hk => .inl hk) fun j hj => by
      rw [List.mem_singleton.1 hj]
      exact fun d hd => hS o (Multiset.mem_cons_self _ _) d (hdeps d hd)

-- A step that changes nothing, at which the share may take up markers the cache holds.
theorem keeps_touch (ho' : ∀ k ∈ o', k ∈ o ∨ k ∈ p.1.cache.keys) :
    Stage.Keeps Host.recorded (historyShares reg) o (fun q => q) p o' :=
  keeps_lifted (g := id) (Host.Adds.of_eq rfl rfl rfl) ho'

end Keeps

/-! ## Programs run with the history beside them -/

section Records

variable {reg : Registry} {α β γ : Type} {o : List String}

/-- From any state the shares account for, the fiber keeps the invariant, holding the markers of
`o`, and ends in `Q` with the shares still accounting for the state: `Stage.Holds` for the host
run with its history beside it, whose rules it takes over. -/
def Records (reg : Registry) (Q : α → List String → Prop) (o : List String)
    (F : Fiber (Host × List WarmEvent) α) : Prop :=
  ∀ p M, (historyShares reg).Inv p (o ::ₘ M) →
    Stage.Runs Host.recorded (historyShares reg)
      (fun a o' p' => Q a o' ∧ ∃ M', (historyShares reg).Inv p' (o' ::ₘ M')) o p F

variable {Q : α → List String → Prop} {F : Fiber (Host × List WarmEvent) α}

theorem Records.bind {Q' : β → List String → Prop} {G : α → Fiber (Host × List WarmEvent) β}
    (hF : Records reg Q o F) (hG : ∀ a o', Q a o' → Records reg Q' o' (G a)) :
    Records reg Q' o (F >>= G) :=
  Stage.Holds.bind hF hG

theorem records_pure {a : α} (hq : Q a o) : Records reg Q o (pure a) :=
  Stage.holds_pure hq

theorem Records.mono {Q' : α → List String → Prop} (hF : Records reg Q o F)
    (hQ : ∀ a o', Q a o' → Q' a o') : Records reg Q' o F :=
  Stage.Holds.mono hF hQ

/-- A loop keeps `I` of the elements it has done while it goes on, and ends with `E` when a round
stops it. -/
theorem Records.forIn {xs : List γ} {b : β} {f : γ → β → Fiber (Host × List WarmEvent) (ForInStep β)}
    (I : List γ → β → List String → Prop) (E : β → List String → Prop)
    (hf : ∀ ys x zs b o', xs = ys ++ x :: zs → I ys b o' →
      Records reg (fun step o'' => match step with
        | .yield b' => I (ys ++ [x]) b' o''
        | .done b' => E b' o'') o' (f x b))
    (h0 : I [] b o) : Records reg (fun b' o' => I xs b' o' ∨ E b' o') o (forIn xs b f) :=
  Stage.Holds.forIn I E hf h0

theorem Records.poised {F : Fiber (Host × List WarmEvent) Unit} (hF : Records reg (fun _ _ => True) o F) :
    Stage.Poised Host.recorded (historyShares reg) o F :=
  fun p M hI => ((hF p M hI).resume hI).mono fun _ _ _ _ => trivial

-- A program whose every change adds only keys the share knows runs with the history beside it,
-- keeping its share.
theorem runs_lift_of_within {f : Act α} {h : Host}
    (hf : Stage.Within Host.stage (Host.Adds (Known o)) h f) :
    ∀ log M, (historyShares reg).Inv (h, log) (o ::ₘ M) →
      Stage.Runs Host.recorded (historyShares reg)
        (fun _ o' p' => o' = o ∧ ∃ M', (historyShares reg).Inv p' (o' ::ₘ M')) o (h, log) (f.lift _) := by
  -- induction on the program's steps; a read is followed by a step that changes nothing
  induction hf with
  | done => exact fun log M hI => .done ⟨rfl, M, hI⟩
  | @read k h _ ih =>
    intro log M hI
    refine .read (.write o (keeps_touch fun k hk => .inl hk) ?_)
    rw [recorded_takeJobs_idle hI.1.idle]
    exact ih log M hI
  | @write g k h hg _ ih =>
    intro log M hI
    have hkeep : Stage.Keeps Host.recorded (historyShares reg) o (fun q => (g q.1, q.2)) (h, log) o :=
      keeps_lifted hg fun k hk => .inl hk
    exact .write o hkeep (ih _ _ (hkeep M hI).2)
  | wait _ ih =>
    intro log M hI
    exact .wait (fun _ => o) (fun _ _ hI _ => hI) fun p M hI _ => ih p.1 p.2 M hI
  | pass _ ih =>
    intro log M hI
    exact .pass fun p M hI => ih p.1 p.2 M hI

end Records

namespace Act

variable {reg : Registry} {α β γ : Type} {o : List String} {Q : α → List String → Prop}

/-- A program of the host, run with the history beside it, from a share `o` to an answer and a
share `Q` allows. -/
def Recorded (reg : Registry) (Q : α → List String → Prop) (o : List String) (f : Act α) : Prop :=
  Records reg Q o (f.lift _)

theorem Recorded.bind {Q' : β → List String → Prop} {f : Act α} {g : α → Act β}
    (hf : Recorded reg Q o f) (hg : ∀ a o', Q a o' → Recorded reg Q' o' (g a)) :
    Recorded reg Q' o (f >>= g) := by
  unfold Recorded
  rw [Fiber.lift_bind]
  exact Records.bind hf hg

theorem recorded_pure {a : α} (hq : Q a o) : Recorded reg Q o (pure a) := records_pure hq

theorem Recorded.mono {Q' : α → List String → Prop} {f : Act α} (hf : Recorded reg Q o f)
    (hQ : ∀ a o', Q a o' → Q' a o') : Recorded reg Q' o f :=
  Records.mono hf hQ

theorem recorded_of_adds {f : Act α} (hf : Adds (Known o) f) : Recorded reg (fun _ o' => o' = o) o f :=
  fun p M hI => runs_lift_of_within (hf p.1) p.2 M hI

theorem Adds.recorded_bind {f : Act α} {g : α → Act β} {Q : β → List String → Prop}
    (hf : Adds (Known o) f) (hg : ∀ a, Recorded reg Q o (g a)) : Recorded reg Q o (f >>= g) :=
  (recorded_of_adds hf).bind fun a _ ho' => ho' ▸ hg a

theorem Adds.records_bind {f : Act α} {G : α → Fiber (Host × List WarmEvent) β}
    {Q : β → List String → Prop}
    (hf : Adds (Known o) f) (hG : ∀ a, Records reg Q o (G a)) : Records reg Q o (f.lift _ >>= G) :=
  Records.bind (recorded_of_adds hf) fun a _ ho' => ho' ▸ hG a

theorem Adds.recorded {f : Act α} (hf : Adds (Known o) f) : Recorded reg (fun _ o' => o ⊆ o') o f :=
  (recorded_of_adds hf).mono fun _ _ ho' => ho' ▸ List.Subset.refl o

theorem Recorded.forIn {xs : List γ} {b : β} {f : γ → β → Act (ForInStep β)}
    (I : List γ → β → List String → Prop) (E : β → List String → Prop)
    (hf : ∀ ys x zs b o', xs = ys ++ x :: zs → I ys b o' →
      Recorded reg (fun step o'' => match step with
        | .yield b' => I (ys ++ [x]) b' o''
        | .done b' => E b' o'') o' (f x b))
    (h0 : I [] b o) : Recorded reg (fun b' o' => I xs b' o' ∨ E b' o') o (forIn xs b f) := by
  unfold Recorded
  rw [Fiber.lift_forIn]
  exact Records.forIn I E hf h0

theorem recorded_giveWay : Recorded reg (fun _ o' => o' = o) o Fiber.giveWay :=
  fun _ _ _ => .pass fun _ M hI => .done ⟨rfl, M, hI⟩

/-- A look at the host, at which the share may take up keys the cache holds. -/
theorem recorded_look (f : Host → α)
    (hQ : ∀ p M, (historyShares reg).Inv p (o ::ₘ M) →
      ∃ o', (∀ k ∈ o', k ∈ o ∨ k ∈ p.1.cache.keys) ∧ Q (f p.1) o') :
    Recorded reg Q o (look f) := by
  intro p M hI
  obtain ⟨o', ho', hq⟩ := hQ p M hI
  have hkeep : Stage.Keeps Host.recorded (historyShares reg) o (fun q => q) p o' := keeps_touch ho'
  exact .read (.write o' hkeep (.done ⟨hq, _, (hkeep M hI).2⟩))

/-- A change and its answer, at which the share may take up keys the cache held. -/
theorem recorded_modifyGet {F : Host → α × Host}
    (hF : ∀ p M, (historyShares reg).Inv p (o ::ₘ M) →
      ∃ o', Host.Adds (Known o) p.1 (F p.1).2 ∧ (∀ k ∈ o', k ∈ o ∨ k ∈ p.1.cache.keys) ∧
        Q (F p.1).1 o') :
    Recorded reg Q o (Fiber.modifyGet F) := by
  intro p M hI
  obtain ⟨o', hA, ho', hq⟩ := hF p M hI
  have hkeep : Stage.Keeps Host.recorded (historyShares reg) o (fun q => ((F p.1).2, q.2)) p o' :=
    keeps_lifted (g := fun _ => (F p.1).2) hA ho'
  refine .read (.write o (keeps_touch fun k hk => .inl hk) ?_)
  rw [recorded_takeJobs_idle hI.1.idle]
  exact .write o' hkeep (.done ⟨hq, _, (hkeep M hI).2⟩)

/-! ## Reading markers -/

/-- A call to the distributed tier: its start adds no key, and its end, for the call the start
admitted, adds keys the share knows and may take up keys the cache held. -/
theorem recorded_callTier {call : BackendCall} {Q : Except CacheError BackendReply → List String → Prop}
    (hrefused : Q (.error .circuitOpen) o)
    (hend : ∀ a, a.call = call → ∀ p M, (historyShares reg).Inv p (o ::ₘ M) →
      ∃ o', Host.Adds (Known o) p.1 (endCall a p.1).2 ∧ (∀ k ∈ o', k ∈ o ∨ k ∈ p.1.cache.keys) ∧
        Q (endCall a p.1).1 o') :
    Recorded reg Q o (callTier call) := by
  unfold callTier
  refine (recorded_modifyGet (F := startCall call)
    (Q := fun admitted o' => o' = o ∧ ∀ a, admitted = some a → a.call = call) fun p _ _ =>
      ⟨o, Host.adds_startCall call p.1, fun k hk => .inl hk, rfl, fun _ ha => startCall_call ha⟩).bind
    fun admitted o' hstart => ?_
  obtain ⟨ho', hcall⟩ := hstart
  subst o'
  split
  · exact recorded_pure hrefused
  · rename_i a
    extract_lets complete
    have hcomplete : ∀ u, Recorded reg Q o (complete u) :=
      fun _ => recorded_modifyGet fun p M hI => hend a (hcall a rfl) p M hI
    split
    · exact Adds.recorded_bind (stays_sleep _) hcomplete
    · exact hcomplete ()

/-- A read of the distributed tier that finds a frame takes up its key. -/
theorem recorded_tierGet (key : String) :
    Recorded reg (fun r o' => o ⊆ o' ∧ ∀ f, r = .ok (some f) → Known o' key) o (tierGet key) := by
  have hcall : Recorded reg (fun r o' => o ⊆ o' ∧ ∀ f, r = .ok (.frame (some f)) → Known o' key) o
      (callTier (.get key)) := by
    refine recorded_callTier ⟨List.Subset.refl o, fun _ h => nomatch h⟩ fun a hcall p _ _ => ?_
    have hA : ∀ o₁, Host.Adds (Known o₁) p.1 (endCall a p.1).2 :=
      fun _ => Host.adds_endCall a p.1 fun _ _ _ hset => nomatch hcall.symm.trans hset
    by_cases hframe : ∃ f, (endCall a p.1).1 = .ok (.frame (some f))
    · obtain ⟨f, hf⟩ := hframe
      refine ⟨key :: o, hA o, fun k hk => ?_, List.subset_cons_self _ _, fun _ _ _ => List.mem_cons_self⟩
      rcases List.mem_cons.1 hk with rfl | hk
      · exact .inr (key_mem_of_endCall_frame hcall hf)
      · exact .inl hk
    · exact ⟨o, hA o, fun k hk => .inl hk, List.Subset.refl o, fun f hf => absurd ⟨f, hf⟩ hframe⟩
  refine hcall.bind fun r o' ⟨hsub, hframe⟩ => recorded_pure ⟨hsub, fun f hf => hframe f ?_⟩
  cases r with
  | error e => cases hf
  | ok reply =>
    cases reply <;> simp only [Except.map, Except.ok.injEq, reduceCtorEq] at hf
    rw [hf]

theorem recorded_peekRaw (key : String) :
    Recorded reg (fun v o' => o ⊆ o' ∧ (v.isSome → Known o' key)) o (peekRaw key) := by
  refine (recorded_look (Q := fun found o' => o ⊆ o' ∧ (found.isSome → key ∈ o')) _
    fun p _ _ => ?_).bind fun found o₁ ⟨hsub₁, hfound⟩ => ?_
  · -- a live item in memory: its key is one the cache holds
    cases hpeek : p.1.cache.memory.peek key p.1.clock with
    | none => exact ⟨o, fun k hk => .inl hk, List.Subset.refl o, fun h => nomatch h⟩
    | some item =>
      refine ⟨key :: o, fun k hk => ?_, List.subset_cons_self _ _, fun _ => List.mem_cons_self⟩
      rcases List.mem_cons.1 hk with rfl | hk
      · exact .inr (List.mem_append_left _ (MemoryTier.mem_keys_of_peek hpeek))
      · exact .inl hk
  split
  · exact recorded_pure ⟨hsub₁, fun _ _ => hfound rfl⟩
  · refine (adds_look _).recorded_bind fun memoryOnly => ?_
    split
    · exact recorded_pure ⟨hsub₁, fun h => nomatch h⟩
    · refine (recorded_tierGet key).bind fun r o₂ ⟨hsub₂, hframe⟩ => ?_
      rcases r with e | _ | frame
      · exact recorded_pure ⟨List.Subset.trans hsub₁ hsub₂, fun h => nomatch h⟩
      · exact recorded_pure ⟨List.Subset.trans hsub₁ hsub₂, fun h => nomatch h⟩
      · refine (recorded_of_adds (adds_look _)).mono fun _ o₃ ho₃ => ?_
        subst ho₃
        exact ⟨List.Subset.trans hsub₁ hsub₂, fun _ => hframe frame rfl⟩

/-- When a pattern's marker is found, the share holds it. -/
theorem recorded_lastWarmed (d : String) :
    Recorded reg (fun last o' => o ⊆ o' ∧ (last.isSome → markerKey d ∈ o')) o (lastWarmed d) :=
  (recorded_peekRaw (markerKey d)).bind fun _ _ ⟨hsub, hknown⟩ =>
    recorded_pure ⟨hsub, fun hlast => hknown (Option.isSome_of_isSome_bind hlast) (isMarker_markerKey d)⟩

/-- A lookup stores in memory only a value it read from the distributed tier, whose key the share
then holds. -/
theorem recorded_lookup (key : String) : Recorded reg (fun _ o' => o ⊆ o') o (lookup key) := by
  refine (adds_onMemory fun now m k => MemoryTier.itemsFrom_get m k key now).recorded_bind fun found => ?_
  split
  · exact (adds_count _).recorded_bind fun _ => recorded_pure (List.Subset.refl o)
  · refine (adds_look _).recorded_bind fun memoryOnly => ?_
    split
    · exact recorded_pure (List.Subset.refl o)
    · refine (recorded_tierGet key).bind fun r o₁ hget => ?_
      obtain ⟨hsub, hframe⟩ := hget
      split
      · next frame =>
        refine (adds_look _).recorded_bind fun decoded => ?_
        split
        · exact (adds_remember (hframe frame rfl) _ (·.defaultTtlMs) _ _).recorded_bind
            fun _ => recorded_pure hsub
        · exact (adds_count _).recorded_bind fun _ => recorded_pure hsub
      · exact recorded_pure hsub

theorem recorded_getRaw (key : String) : Recorded reg (fun _ o' => o ⊆ o') o (getRaw key) := by
  refine (recorded_lookup key).bind fun found o₁ hsub => ?_
  dsimp only
  split
  · exact (adds_count _).recorded_bind fun _ => (adds_count _).recorded_bind fun _ => recorded_pure hsub
  · exact (adds_count _).recorded_bind fun _ => recorded_pure hsub

/-- A rule is eligible only when the share holds the marker of each of its dependencies. -/
theorem recorded_eligibility (r : Rule) (now : Instant) :
    Recorded reg
      (fun gate o' => o ⊆ o' ∧ (gate = .eligible → ∀ d ∈ r.dependencies, markerKey d ∈ o')) o
      (eligibility r now) := by
  refine (recorded_lastWarmed r.pattern).bind fun last o₁ hlast => ?_
  have hsub₁ : o ⊆ o₁ := hlast.1
  extract_lets gates
  -- the conditions and the dependencies, checked on both branches of the last-warmed gate
  have hgates : ∀ u, Recorded reg
      (fun gate o' => o ⊆ o' ∧ (gate = .eligible → ∀ d ∈ r.dependencies, markerKey d ∈ o')) o₁
      (gates u) := by
    intro u
    refine (Recorded.forIn (fun _ (b : Option Eligibility × Unit) o' => o' = o₁ ∧ b.1 = none)
      (fun (b : Option Eligibility × Unit) o' => o' = o₁ ∧ ∃ v, b.1 = some v ∧ v ≠ .eligible)
      (fun _ c _ _ o' _ hI => ?_) ⟨rfl, rfl⟩).bind fun found o₂ hfound => ?_
    · obtain ⟨ho', -⟩ := hI
      subst o'
      refine (adds_evaluate c now).recorded_bind fun result => ?_
      split
      · exact recorded_pure ⟨rfl, rfl⟩
      · exact recorded_pure ⟨rfl, _, rfl, fun h => nomatch h⟩
    extract_lets
    split
    · next v hv =>
      have hne : v ≠ .eligible := by
        rcases hfound with ⟨-, hnone⟩ | ⟨-, v', hv', hne⟩
        · rw [hnone] at hv
          cases hv
        · rw [hv'] at hv
          cases hv
          exact hne
      have ho₂ : o₂ = o₁ := hfound.elim (·.1) (·.1)
      exact recorded_pure ⟨ho₂ ▸ hsub₁, fun h => absurd h hne⟩
    · have ho₂ : o₂ = o₁ := hfound.elim (·.1) (·.1)
      subst ho₂
      refine (Recorded.forIn
        (fun ys (b : Option Eligibility × Unit) o' =>
          o₂ ⊆ o' ∧ b.1 = none ∧ ∀ d ∈ ys, markerKey d ∈ o')
        (fun (b : Option Eligibility × Unit) o' => o₂ ⊆ o' ∧ ∃ v, b.1 = some v ∧ v ≠ .eligible)
        (fun ys d _ _ o' _ hI => ?_) ⟨List.Subset.refl _, rfl, by simp⟩).bind
        fun found o₃ hfound => ?_
      · obtain ⟨hsub, -, hdone⟩ := hI
        refine (recorded_lastWarmed d).bind fun last o'' ⟨hsub', hlast⟩ => ?_
        split
        · exact recorded_pure ⟨List.Subset.trans hsub hsub', _, rfl, fun h => nomatch h⟩
        · next hsome =>
          refine recorded_pure ⟨List.Subset.trans hsub hsub', rfl, fun d' hd' => ?_⟩
          rcases List.mem_append.1 hd' with hd' | hd'
          · exact hsub' (hdone d' hd')
          · rw [List.mem_singleton.1 hd']
            exact hlast (Option.isSome_iff_ne_none.2 (by simpa using hsome))
      · extract_lets
        split
        · next v hv =>
          rcases hfound with ⟨hsub₃, hnone, -⟩ | ⟨hsub₃, v', hv', hne⟩
          · rw [hnone] at hv
            cases hv
          · rw [hv'] at hv
            cases hv
            exact recorded_pure ⟨List.Subset.trans hsub₁ hsub₃, fun h => absurd h hne⟩
        · next hv =>
          rcases hfound with ⟨hsub₃, -, hdeps⟩ | ⟨-, v', hv', -⟩
          · exact recorded_pure ⟨List.Subset.trans hsub₁ hsub₃, fun _ => hdeps⟩
          · rw [hv'] at hv
            cases hv
  split
  · split
    · exact recorded_pure ⟨hsub₁, fun h => nomatch h⟩
    · exact hgates ()
  · exact hgates ()

/-! ## The dispatcher -/

/-- A warming job is asked for only when the share holds the marker of each of its rule's
dependencies. -/
theorem recorded_spawnWarm {id : Nat} {r : Rule} {now : Instant} {trigger : Option String}
    (hr : r.refresh.SparesMarkers) (hdeps : ∀ d ∈ r.dependencies, markerKey d ∈ o) :
    Recorded reg (fun _ o' => o' = o) o (spawn (.warm id r now trigger)) := by
  intro p M hI
  have hkeep : Stage.Keeps Host.recorded (historyShares reg) o
      (fun q => ({ q.1 with requested := q.1.requested ++ [.warm id r now trigger] }, q.2)) p o :=
    keeps_spawnWarm hr hdeps
  exact .write o hkeep (.done ⟨rfl, _, (hkeep M hI).2⟩)

theorem recorded_dispatch {r : Rule} (hr : r.refresh.SparesMarkers) (now : Instant) (trigger : Option String) :
    Recorded reg (fun _ o' => o ⊆ o') o (dispatch r now trigger) := by
  refine (adds_claim r.pattern).recorded_bind fun claimed => ?_
  split
  · exact recorded_pure (List.Subset.refl o)
  · refine (recorded_eligibility r now).bind fun gate o₁ hgate => ?_
    obtain ⟨hsub, heligible⟩ := hgate
    split
    · -- eligible: each dependency's marker was read, so the job may start
      refine (adds_takePermit r.pattern).recorded_bind fun started => ?_
      split
      · exact (recorded_spawnWarm hr (heligible rfl)).bind fun _ o' ho' => recorded_pure (ho' ▸ hsub)
      · exact recorded_pure hsub
    · exact (adds_changeWarmer (f := (·.release r.pattern)) fun _ => rfl).recorded_bind
        fun _ => recorded_pure hsub

section Rules

variable {rules : List Rule}

theorem recorded_dispatchAll (hrules : ∀ r ∈ rules, r.refresh.SparesMarkers) (now : Instant)
    (trigger : Option String) : Recorded reg (fun _ o' => o ⊆ o') o (dispatchAll rules now trigger) := by
  unfold dispatchAll
  refine (Recorded.forIn (fun _ (_ : List String) o' => o ⊆ o') (fun _ o' => o ⊆ o')
    (fun ys r zs _ o' hrules' hsub => ?_) (List.Subset.refl o)).bind
    fun _ o' hsub => recorded_pure (hsub.elim id id)
  have hr : r.refresh.SparesMarkers := hrules r (by simp [hrules'])
  refine (recorded_dispatch hr now trigger).bind fun began o'' hsub' => ?_
  split <;> exact recorded_pure (List.Subset.trans hsub hsub')

end Rules

variable (hreg : ∀ r ∈ reg.rules, r.refresh.SparesMarkers)
include hreg

-- The rules the dispatcher reads are the registry's, whose refreshes spare markers.
theorem recorded_registryRules (f : Registry → List Rule) (hf : ∀ g, ∀ r ∈ f g, r ∈ g.rules) :
    Recorded reg (fun rules o' => o' = o ∧ ∀ r ∈ rules, r.refresh.SparesMarkers) o
      (look fun h => (h.warmer.map (f ·.registry)).getD []) := by
  refine recorded_look _ fun p _ hI => ⟨o, fun k hk => .inl hk, rfl, fun r hr => ?_⟩
  have hw := hI.1.registry
  cases hwarmer : p.1.warmer with
  | none => simp [hwarmer] at hw
  | some w =>
    simp only [hwarmer, Option.map_some, Option.some.injEq] at hw
    simp only [hwarmer, Option.map_some, Option.getD_some] at hr
    exact hreg r (hw ▸ hf _ r hr)

theorem recorded_tick (now : Instant) : Recorded reg (fun _ o' => o ⊆ o') o (tick now) :=
  (recorded_registryRules hreg Registry.ordered fun _ _ hr => List.mem_mergeSort.1 hr).bind
    fun _ _ ⟨ho', hrules⟩ => ho' ▸ recorded_dispatchAll hrules now none

theorem recorded_handleTrigger (key : String) (now : Instant) :
    Recorded reg (fun _ o' => o ⊆ o') o (handleTrigger key now) := by
  unfold handleTrigger
  split
  · exact recorded_pure (List.Subset.refl o)
  · refine (adds_changeWarmer (f := (·.count fun c => { c with triggers := c.triggers + 1 }))
      fun _ => rfl).recorded_bind fun _ => ?_
    exact (recorded_registryRules hreg (·.matching key)
      fun _ _ hr => List.mem_mergeSort.1 (List.mem_filter.1 hr).1).bind
      fun _ _ ⟨ho', hrules⟩ => ho' ▸ recorded_dispatchAll hrules now (some key)

end Act

/-! ## Callers -/

/-- A request that writes no marker: each write it makes is of a key that is no marker. -/
def Request.SparesMarkers : Request → Prop
  | .call (.set key ..) | .set key .. => ¬ IsMarker key
  | _ => True

/-- A caller that makes its requests, one after the other. -/
def Request.caller (rs : List Request) : Act Unit := do
  let _ ← Request.program rs

section Callers

variable {reg : Registry} {o : List String}

theorem CacheCall.recorded_act {c : CacheCall} (hc : (Request.call c).SparesMarkers) :
    Act.Recorded reg (fun _ o' => o ⊆ o') o c.act := by
  -- a read may store what it found in memory; every other call adds only keys it writes
  cases c with
  | get key => exact (Act.recorded_getRaw key).bind fun _ _ hsub => Act.recorded_pure hsub
  | set key value ttlMs strategy =>
    exact ((Act.adds_setRaw (known_of_not_isMarker hc) (fun _ => hc) value ttlMs).bind
      fun _ => Act.adds_pure _).recorded
  | contains key => exact ((Act.adds_contains key).bind fun _ => Act.adds_pure _).recorded
  | delete key => exact ((Act.adds_delete key).bind fun _ => Act.adds_pure _).recorded
  | invalidate pattern => exact ((Act.adds_invalidate pattern).bind fun _ => Act.adds_pure _).recorded
  | sweep => exact (Act.adds_sweep.bind fun _ => Act.adds_pure _).recorded
  | clearLocal => exact (Act.adds_clearLocal.bind fun _ => Act.adds_pure _).recorded
  | flush => exact (Act.adds_flush.bind fun _ => Act.adds_pure _).recorded

theorem Request.recorded_act {r : Request} (hr : r.SparesMarkers) :
    Act.Recorded reg (fun _ o' => o ⊆ o') o r.act := by
  cases r with
  | call c => exact (CacheCall.recorded_act hr).bind fun _ _ hsub => Act.recorded_pure hsub
  | get key sh =>
    exact (Act.recorded_getRaw key).bind fun found _ hsub =>
      (Act.adds_readAs sh found).recorded_bind fun _ => Act.recorded_pure hsub
  | getOr key sh dflt =>
    exact (Act.recorded_getRaw key).bind fun found _ hsub =>
      (Act.adds_readAs sh found).recorded_bind fun _ => Act.recorded_pure hsub
  | set key serialized ttlMs strategy =>
    exact ((Act.adds_set (known_of_not_isMarker hr) (fun _ => hr) serialized ttlMs).bind
      fun _ => Act.adds_pure _).recorded
  | peek key => exact ((Act.adds_peekRaw key).bind fun _ => Act.adds_pure _).recorded

theorem Request.recorded_program :
    ∀ rs : List Request, (∀ r ∈ rs, r.SparesMarkers) → ∀ o,
      Act.Recorded reg (fun _ _ => True) o (Request.program rs)
  | [], _, _ => Act.recorded_pure trivial
  | r :: rs, hrs, o => by
    rw [Request.program]
    exact Act.recorded_giveWay.bind fun _ _ ho' => ho' ▸ (recorded_act (hrs r List.mem_cons_self)).bind
      fun _ o' _ => (recorded_program rs (fun r' hr' => hrs r' (List.mem_cons_of_mem _ hr')) o').bind
        fun _ _ _ => Act.recorded_pure trivial

theorem Request.recorded_caller {rs : List Request} (hrs : ∀ r ∈ rs, r.SparesMarkers) :
    Act.Recorded reg (fun _ _ => True) o (Request.caller rs) :=
  (recorded_program rs hrs o).bind fun _ _ _ => Act.recorded_pure trivial

variable (hreg : ∀ r ∈ reg.rules, r.refresh.SparesMarkers)
include hreg

theorem WarmCall.recorded_act (c : WarmCall) : Act.Recorded reg (fun _ o' => o ⊆ o') o c.act := by
  cases c with
  | tick now => exact (Act.recorded_tick hreg now).bind fun _ _ hsub => Act.recorded_pure hsub
  | trigger key now =>
    exact (Act.recorded_handleTrigger hreg key now).bind fun _ _ hsub => Act.recorded_pure hsub
  | drain => exact Act.adds_drain.recorded

theorem WarmCall.recorded_program :
    ∀ (calls : List WarmCall) o, Act.Recorded reg (fun _ _ => True) o (WarmCall.program calls)
  | [], _ => Act.recorded_pure trivial
  | c :: cs, o => by
    rw [WarmCall.program]
    exact Act.recorded_giveWay.bind fun _ _ ho' => ho' ▸ (recorded_act hreg c).bind
      fun _ o' _ => recorded_program cs o'

end Callers

/-! ## The jobs -/

section Jobs

variable {reg : Registry} {o : List String} {p : Host × List WarmEvent}

/-- Noting that a pattern was warmed keeps what the history vouches for, and the share then holds the
pattern's marker, which the job may write. -/
theorem keeps_noteWarmed (d : String) :
    Stage.Keeps Host.recorded (historyShares reg) o (fun q => (q.1, q.2 ++ [.warmed d])) p [markerKey d] := by
  rintro M ⟨hV, hS⟩
  have hjobs : (Host.recorded.takeJobs (p.1, p.2 ++ [WarmEvent.warmed d])).1 = [] := hV.idle
  have hlog : p.2 ⊆ p.2 ++ [WarmEvent.warmed d] := List.subset_append_left _ _
  refine ⟨fun j hj => ?_, ?_⟩
  · rw [hjobs] at hj
    cases hj
  · dsimp only
    rw [recorded_takeJobs_idle (p := (p.1, p.2 ++ [WarmEvent.warmed d])) hV.idle, hjobs, List.map_nil,
      Multiset.coe_nil, add_zero]
    refine ⟨⟨hV.idle, hV.registry, fun d' hd' => hlog (hV.markers d' hd'),
      hV.ordered.append fun e he => ?_⟩, fun o₁ ho₁ d' hd' => ?_⟩
    · rw [List.mem_singleton.1 he]
      trivial
    · rcases Multiset.mem_cons.1 ho₁ with rfl | ho₁
      · rw [List.mem_singleton, markerKey_injective.eq_iff] at hd'
        rw [hd']
        exact List.mem_append_right _ List.mem_cons_self
      · exact hlog (hS o₁ (Multiset.mem_cons_of_mem ho₁) d' hd')

theorem records_noteWarmed (d : String) :
    Records reg (fun _ o' => o' = [markerKey d]) o (Fiber.note (· ++ [.warmed d])) := by
  intro p M hI
  have hkeep : Stage.Keeps Host.recorded (historyShares reg) o (fun q => (q.1, q.2 ++ [.warmed d])) p
      [markerKey d] :=
    keeps_noteWarmed d
  exact .write [markerKey d] hkeep (.done ⟨rfl, _, (hkeep M hI).2⟩)

/-- A warming job whose refresh spares markers writes only the marker of its own pattern, after
noting that the pattern was warmed. -/
theorem records_warmJobNoted {id : Nat} {r : Rule} (hr : r.refresh.SparesMarkers) (now : Instant)
    (trigger : Option String) : Records reg (fun _ _ => True) [] (Act.warmJobNoted id r now trigger) := by
  refine Act.adds_now.records_bind fun started => ?_
  refine ((Act.adds_runRule hr now trigger).mono fun _ => known_of_not_isMarker).records_bind
    fun outcome => ?_
  extract_lets finishNoted
  have hfinish : ∀ o u, Records reg (fun _ _ => True) o (finishNoted u) := fun _ _ =>
    (Act.recorded_of_adds (Act.adds_changeWarmer fun _ => by rfl)).mono fun _ _ _ => trivial
  cases outcome with
  | warmed items =>
    -- once noted, the share holds the marker the job writes next
    have hmark : Act.Adds (Known [markerKey r.pattern]) (Act.markWarmed r.pattern now) :=
      (Act.adds_markWarmed r.pattern now).mono fun _ hk _ => by
        rw [hk]
        exact List.mem_singleton_self _
    exact (records_noteWarmed r.pattern).bind fun _ _ ho => ho ▸ hmark.records_bind fun _ =>
      Act.adds_now.records_bind fun _ => (Act.adds_changeWarmer fun _ => by rfl).records_bind (hfinish _)
  | failed e =>
    exact Act.adds_now.records_bind fun _ => (Act.adds_changeWarmer fun _ => by rfl).records_bind (hfinish _)
  | died => exact hfinish [] ()

theorem poised_launchNoted (j : Job) (hj : (historyShares reg).Spawnable j) :
    Stage.Poised Host.recorded (historyShares reg) ((historyShares reg).hold j) (Host.recorded.launch j) := by
  cases j with
  | warm id r now trigger => exact Records.poised (records_warmJobNoted hj now trigger)
  | writeBehind key frame ttlMs ticket =>
    exact Records.poised ((Act.recorded_of_adds
      (Act.adds_writeBehindJob (known_of_not_isMarker hj) frame ttlMs ticket)).mono fun _ _ _ => trivial)
  | loop => exact hj.elim

end Jobs

/-! ## Every run keeps the order -/

section Crowd

variable {reg : Registry} {h₀ : Host} {fibers : List (Act Unit)}

-- A crowd started from a host holding no marker, with an empty history, shares and no job asked for.
theorem good_recorded_start (hreq : h₀.requested = []) (hreg₀ : h₀.warmer.map (·.registry) = some reg)
    (hplain : ∀ k ∈ h₀.cache.keys, ¬ IsMarker k)
    (hfibers : ∀ f ∈ fibers, Act.Recorded reg (fun _ _ => True) [] f) :
    Crowd.Good Host.recorded (historyShares reg) ⟨(h₀, []), fibers.map (Fiber.lift _)⟩ := by
  refine ⟨fibers.map fun _ => [], ?_,
    ⟨hreq, hreg₀, fun d hd => absurd (isMarker_markerKey d) (hplain _ hd), .nil⟩, fun o ho d hd => ?_⟩
  · simp only [List.forall₂_map_left_iff, List.forall₂_map_right_iff]
    exact List.forall₂_same.2 fun f hf => Records.poised (hfibers f hf)
  · simp only [Multiset.mem_coe, List.mem_map] at ho
    obtain ⟨_, _, rfl⟩ := ho
    cases hd

-- Moving the clock changes nothing the history vouches for.
theorem recorded_inv_setClock {p : Host × List WarmEvent} {t : Nat} {S : Multiset (List String)}
    (hI : (historyShares reg).Inv p S) : (historyShares reg).Inv (Host.recorded.setClock p t) S :=
  ⟨⟨hI.1.idle, hI.1.registry, hI.1.markers, hI.1.ordered⟩, hI.2⟩

theorem shadows_recorded_start (hreq : h₀.requested = []) :
    Crowd.Shadows Host.stage (⟨(h₀, []), fibers.map (Fiber.lift _)⟩ : Crowd (Host × List WarmEvent))
      ⟨h₀, fibers⟩ := by
  refine ⟨rfl, ?_, ?_⟩
  · show (h₀.requested, { h₀ with requested := [] }) = ([], h₀)
    rw [← hreq]
  · simp only [List.forall₂_map_left_iff]
    exact List.forall₂_same.2 fun f _ => ⟨Fiber.Shadows.lift f, Fiber.sameStep_lift f⟩

end Crowd

/-- Over every run of callers that tick the warming scheduler, hand it written keys, drain it and
make cache requests, with the jobs their dispatches start running beside them in any order and the
clock moving as it likes, started from a host whose cache holds no marker: when no request writes
a marker key and no rule's refresh does, the run is the shadow of a run with the history of warming
beside it, in which every marker the cache holds belongs to a pattern whose refresh returned Ok, and
every warming job started after a refresh of each of its rule's dependencies returned Ok. -/
theorem dependencies_warmed_before_dispatch (h₀ : Host) (reg : Registry)
    (warmers : List (List WarmCall)) (writers : List (List Request)) (c : Crowd Host)
    (hreq : h₀.requested = []) (hreg₀ : h₀.warmer.map (·.registry) = some reg)
    (hplain : ∀ k ∈ h₀.cache.keys, ¬ IsMarker k) (hrules : ∀ r ∈ reg.rules, r.refresh.SparesMarkers)
    (hwriters : ∀ rs ∈ writers, ∀ r ∈ rs, r.SparesMarkers)
    (hrun : Relation.ReflTransGen (Stage.Move Host.stage)
      ⟨h₀, warmers.map WarmCall.program ++ writers.map Request.caller⟩ c) :
    ∃ C : Crowd (Host × List WarmEvent),
      Relation.ReflTransGen (Stage.Move Host.recorded)
        ⟨(h₀, []), (warmers.map WarmCall.program ++ writers.map Request.caller).map (Fiber.lift _)⟩ C ∧
      C.Shadows Host.stage c ∧
      (∀ d, markerKey d ∈ c.state.cache.keys → .warmed d ∈ C.state.2) ∧
      ∀ pre id r now trigger post, C.state.2 = pre ++ .started (.warm id r now trigger) :: post →
        ∀ d ∈ r.dependencies, .warmed d ∈ pre := by
  obtain ⟨C, hC, hsh⟩ := (shadows_recorded_start hreq).reach recorded_shadowable hrun
  -- every fiber, caller or job, runs with the history beside it from any state it vouches for
  have hfibers : ∀ f ∈ warmers.map WarmCall.program ++ writers.map Request.caller,
      Act.Recorded reg (fun _ _ => True) [] f := by
    intro f hf
    rcases List.mem_append.1 hf with hf | hf
    · obtain ⟨calls, -, rfl⟩ := List.mem_map.1 hf
      exact WarmCall.recorded_program hrules calls []
    · obtain ⟨rs, hrs, rfl⟩ := List.mem_map.1 hf
      exact Request.recorded_caller (hwriters rs hrs)
  obtain ⟨_, -, hV, -⟩ := (good_recorded_start hreq hreg₀ hplain hfibers).reach poised_launchNoted
    (fun _ _ _ _ hI => recorded_inv_setClock hI) hC
  refine ⟨C, hC, hsh, fun d hd => hV.markers d ?_, fun pre _ _ _ _ post hlog => hV.ordered pre _ post hlog⟩
  rw [hsh.1]
  exact hd

/-! ## A dependent may start before its dependency's marker lands

The marker is written cache-aside: memory first, then the distributed tier. A tick that dispatches
a slow rule and then its dependent reads the marker from memory once the slow rule's refresh has
returned, and starts the dependent while the marker is on its way to a distributed tier that answers
after 100 ms. -/

/-- Noon on 4 March 2024. -/
def marchNoon : Instant := ⟨1709553600000000000⟩

/-- A rule whose refresh takes 50 ms. -/
def slowRule : Rule :=
  { pattern := "d", priority := .high, frequencySecs := 60, refresh := .scripted { sleepMs := 50 } }

/-- A rule that depends on the slow one. -/
def dependentRule : Rule :=
  { pattern := "r", priority := .high, frequencySecs := 60, dependencies := ["d"], refresh := .scripted {} }

/-- A warmer with permits to spare and the two rules. -/
def pairWarmer : Warmer :=
  { (default : Warmer) with
    settings := {}, permits := 8, registry := { markerTtlMs := 86400000, rules := [slowRule, dependentRule] } }

/-- A host whose distributed tier answers after 100 ms. -/
def pairHost : Host :=
  { cache := { TieredCache.create .lz4 {} true with
      distributed := (TieredCache.create .lz4 {} true).distributed.map fun t =>
        { t with backend := { t.backend with latency := some 100 } } },
    warmer := some pairWarmer }

theorem pairWarmer_ordered : pairWarmer.registry.ordered = [slowRule, dependentRule] :=
  List.mergeSort_of_pairwise (by simp [Rule.before, Priority.rank]; decide)

theorem pairHost_tick (n : Nat) : Host.stage.run (n + 1) pairHost {} (Act.tick marchNoon).resume =
    Host.stage.run n pairHost {} (Act.dispatchAll [slowRule, dependentRule] marchNoon none) := by
  show Host.stage.run n pairHost {}
    (Act.dispatchAll ((pairHost.warmer.map (·.registry.ordered)).getD []) marchNoon none) = _
  simp only [pairHost, Option.map_some, Option.getD_some, pairWarmer_ordered]

/-- A caller that ticks the warmer at noon on 4 March 2024, beside one that writes a user's key, from the host
with the slow rule and its dependent, before anything has moved. -/
theorem ticking_beside_a_writer_keeps_dependency_order :
    ∃ C : Crowd (Host × List WarmEvent),
      Relation.ReflTransGen (Stage.Move Host.recorded)
        ⟨(pairHost, []), ([[WarmCall.tick marchNoon]].map WarmCall.program ++
          [[Request.call (.set "user:1" "1".toUTF8 none .cacheAside)]].map Request.caller).map
            (Fiber.lift _)⟩ C ∧
      C.Shadows Host.stage ⟨pairHost, [[WarmCall.tick marchNoon]].map WarmCall.program ++
        [[Request.call (.set "user:1" "1".toUTF8 none .cacheAside)]].map Request.caller⟩ ∧
      (∀ d, markerKey d ∈ pairHost.cache.keys → .warmed d ∈ C.state.2) ∧
      ∀ pre id r now trigger post, C.state.2 = pre ++ .started (.warm id r now trigger) :: post →
        ∀ d ∈ r.dependencies, .warmed d ∈ pre :=
  dependencies_warmed_before_dispatch pairHost pairWarmer.registry _ _ _ rfl rfl
    (by simp [show pairHost.cache.keys = [] by decide +kernel])
    (by simp [pairWarmer, slowRule, dependentRule, Refresh.SparesMarkers])
    (by
      simp only [List.mem_singleton, forall_eq]
      exact not_isMarker_of_head (by simp)) .refl

/-- A tick at noon on 4 March 2024 dispatches both rules; when it ends, the slow rule's job still
holds its claim, and its marker is in memory but not in the distributed tier. -/
theorem dependent_starts_before_marker_lands :
    ∃ h', Host.stage.Ends pairHost (Act.tick marchNoon) ["d", "r"] h' ∧
      (h'.warmer.map (·.claimed "d")) = some true ∧ markerKey "d" ∈ h'.cache.memory.keys ∧
      (h'.cache.distributed.map fun t => t.backend.raw (markerKey "d")) = some none := by
  -- the tick's first turn reads the rules in order and goes on as their dispatch
  have hstep : Host.stage.Step (⟨pairHost, Act.tick marchNoon, []⟩ : Scene Host (List String))
      (Scene.mainTurn Host.stage 99
        ⟨pairHost, Act.dispatchAll [slowRule, dependentRule] marchNoon none, []⟩) :=
    .main (pairHost_tick 99) (Stage.rests_iff.1 (by decide +kernel))
  have hrest := Scene.reach_play (by decide +kernel :
    (Scene.mainTurn Host.stage 99
      (⟨pairHost, Act.dispatchAll [slowRule, dependentRule] marchNoon none, []⟩ :
        Scene Host (List String))).playable Host.stage 100
      [.tick 100, .main, .fiber 0, .tick 150, .fiber 0, .tick 200, .main] = true)
  exact ⟨_, Scene.ends_of_reach (.head hstep hrest) (by decide +kernel), by decide +kernel⟩

end TierCache
