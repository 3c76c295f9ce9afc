import TierCache.Proofs.WriteVisibility
import TierCache.Proofs.ServiceFrame

/-!
# The gates of a rule

The marker, the conditions and the dependencies are tried in order, and the verdict is the first
gate failed (`eligibility_first_failing_gate`). Within an hour of the calendar's first instant an
active-users condition halts instead (`early_active_users_gate_halts`).
-/

namespace TierCache

/-! ## Conditions -/

theorem DataSource.begin_ok {s s' : DataSource} (h : s.begin = .ok s') :
    s' = { s with queries := s.queries + 1 } := by
  simp only [DataSource.begin] at h
  split at h
  · cases h
  · exact (Except.ok.inj h).symm

/-- The hour of the day is one of its 24. -/
theorem Instant.hour_lt (t : Instant) : t.hour < 24 := by
  unfold Instant.hour Instant.dayAndTime Instant.nanosPerDay Instant.nanosPerSecond
  omega

namespace Condition

/-- Whether evaluating the condition asks the data source: every condition but business hours. -/
def asksSource : Condition → Bool
  | businessHours .. => false
  | _ => true

/-- Evaluating a condition asks the source once if it asks it at all, whether the source answers
or refuses, and changes nothing else of it. -/
theorem evaluate_source {c : Condition} {src src' : DataSource} {now : Instant}
    {res : Except String Bool} (h : c.evaluate src now = .ok (res, src')) :
    src' = { src with queries := src.queries + if c.asksSource then 1 else 0 } := by
  cases c with
  | businessHours a b =>
    simp only [evaluate, Except.ok.injEq, Prod.mk.injEq] at h
    rw [← h.2]
    rfl
  | activeUsers n =>
    simp only [evaluate] at h
    cases hback : now.back AccessTracker.lookbackSecs with
    | error e => simp [hback] at h
    | ok since =>
      simp only [hback] at h
      -- the one query, answered or refused
      split at h
      · next hbegin =>
        cases h
        exact DataSource.begin_ok hbegin
      · cases h
        rfl
  | popularSearches n | newRecords n =>
    simp only [evaluate, Except.ok.injEq] at h
    split at h
    · next hbegin =>
      cases h
      exact DataSource.begin_ok hbegin
    · cases h
      rfl

/-- Business hours from `a` to `b` hold in `[a, b)` of the UTC hour, read around the clock when
`a > b`; they ask nothing. -/
theorem businessHours_holds_iff {a b : Nat} {src : DataSource} {now : Instant} :
    (businessHours a b).evaluate src now = .ok (.ok true, src) ↔
      if a ≤ b then a ≤ now.hour ∧ now.hour < b else a ≤ now.hour ∨ now.hour < b := by
  simp only [evaluate, withinHours, Except.ok.injEq, Prod.mk.injEq, and_true]
  split <;> simp

/-- `FirstUnmet now cs src o src'`: evaluated in order against the source from `src`, the
conditions `cs` all hold (`o = none`), or `o = some c` for the first that is false or refused, and
none after it is evaluated; `src'` is the source as the evaluations left it. No evaluation leaves
the calendar. -/
inductive FirstUnmet (now : Instant) :
    List Condition → DataSource → Option Condition → DataSource → Prop
  | nil {src} : FirstUnmet now [] src none src
  | unmet {c cs src res src'} : c.evaluate src now = .ok (res, src') → res ≠ .ok true →
      FirstUnmet now (c :: cs) src (some c) src'
  | met {c cs src src₁ o src'} : c.evaluate src now = .ok (.ok true, src₁) →
      FirstUnmet now cs src₁ o src' → FirstUnmet now (c :: cs) src o src'

namespace FirstUnmet

variable {now : Instant} {cs : List Condition} {src src' : DataSource} {o : Option Condition}

/-- Only the conditions up to the first unmet one, or all of them, ask the source, each once. -/
theorem queried (h : FirstUnmet now cs src o src') :
    ∃ asked, asked <+: cs ∧
      src' = { src with queries := src.queries + asked.countP asksSource } ∧
      (o = none → asked = cs) ∧ ∀ c, o = some c → ∃ pre, asked = pre ++ [c] := by
  induction h with
  | nil => exact ⟨[], List.nil_prefix, by simp, fun _ => rfl, fun _ h => by cases h⟩
  | @unmet c cs src res src' hev _ =>
    refine ⟨[c], List.cons_prefix_cons.2 ⟨rfl, List.nil_prefix⟩, ?_, (fun h => by cases h),
      fun c' h => ⟨[], by cases h; rfl⟩⟩
    rw [evaluate_source hev]
    cases hask : c.asksSource <;> simp [hask]
  | @met c cs src src₁ o src' hev _ ih =>
    obtain ⟨asked, hprefix, hsrc, hall, hlast⟩ := ih
    refine ⟨c :: asked, List.cons_prefix_cons.2 ⟨rfl, hprefix⟩, ?_, fun h => by rw [hall h],
      fun c' h => ?_⟩
    · rw [hsrc, evaluate_source hev]
      -- the condition's own query, if it asks, counts before those after it
      cases hask : c.asksSource
      · simp [hask]
      · simp [hask]
        omega
    · obtain ⟨pre, rfl⟩ := hlast c' h
      exact ⟨c :: pre, rfl⟩

/-- A first condition that is evaluated at all stays in the calendar. -/
theorem head_evaluates {c : Condition} (h : FirstUnmet now (c :: cs) src o src') :
    ∃ res src₁, c.evaluate src now = .ok (res, src₁) := by
  cases h with
  | unmet hev _ => exact ⟨_, _, hev⟩
  | met hev _ => exact ⟨_, _, hev⟩

end FirstUnmet

end Condition

/-! ## The verdict -/

/-- `MarkersRun R h ds o h'`: from `h`, amid others moving the state by `R`, the markers of the
dependencies `ds` read in order until the first that cannot be read, `o = some d`, or to the end,
`o = none`, leaving `h'`. -/
inductive MarkersRun (R : Host → Host → Prop) : Host → List String → Option String → Host → Prop
  | nil {h} : MarkersRun R h [] none h
  | missing {h h' d ds} : Host.stage.Amid R h (Act.lastWarmed d) none h' →
      MarkersRun R h (d :: ds) (some d) h'
  | found {h h₁ h' d ds o t} : Host.stage.Amid R h (Act.lastWarmed d) (some t) h₁ →
      MarkersRun R h₁ ds o h' → MarkersRun R h (d :: ds) o h'

/-- A marker read lets a rule run at `now`: there is no marker, or it is not ahead of `now` and at
least the rule's frequency old. -/
def Rule.Due (r : Rule) (now : Instant) (m : Option Instant) : Prop :=
  ∀ last, m = some last →
    last.nanos ≤ now.nanos ∧ r.frequencySecs * Instant.nanosPerSecond ≤ now.nanos - last.nanos

theorem tooRecent_iff {last now : Instant} {f : Nat} :
    tooRecent last now f = true ↔
      now.nanos < last.nanos ∨ now.nanos - last.nanos < f * Instant.nanosPerSecond := by
  simp [tooRecent]

theorem Rule.due_of_not_tooRecent {r : Rule} {now last : Instant}
    (h : ¬ tooRecent last now r.frequencySecs = true) : r.Due now (some last) := by
  rintro _ ⟨⟩
  rw [tooRecent_iff] at h
  omega

/-- How the gates of `r` decide at `now`, from the marker read `m` and the host `h` that read left:
too soon when the marker is ahead of `now` or younger than the frequency; otherwise the first
unmet condition against `h`'s source; otherwise, from `h` with the source the conditions left,
the first dependency whose marker cannot be read; otherwise eligible. -/
inductive Gated (R : Host → Host → Prop) (r : Rule) (now : Instant) :
    Option Instant → Host → Eligibility → Prop
  | tooSoon {last h} :
      now.nanos < last.nanos ∨ now.nanos - last.nanos < r.frequencySecs * Instant.nanosPerSecond →
      Gated R r now (some last) h (.tooSoon last)
  | conditionUnmet {m h c src} : r.Due now m →
      Condition.FirstUnmet now r.conditions h.source (some c) src →
      Gated R r now m h (.conditionUnmet c)
  | dependencyUnmet {m h src h₂ d h'} : r.Due now m →
      Condition.FirstUnmet now r.conditions h.source none src →
      { h with source := src, requested := h₂.requested } = h₂ →
      MarkersRun R h₂ r.dependencies (some d) h' → Gated R r now m h (.dependencyUnmet d)
  | eligible {m h src h₂ h'} : r.Due now m →
      Condition.FirstUnmet now r.conditions h.source none src →
      { h with source := src, requested := h₂.requested } = h₂ →
      MarkersRun R h₂ r.dependencies none h' → Gated R r now m h .eligible

/-! ## What the gates leave alone -/

namespace Host

/-- A change the cache's callers do not see: the memory tier, its entries and their recency, and
the counters of their traffic stay as they were. -/
def Unread (h h' : Host) : Prop :=
  h'.cache.memory = h.cache.memory ∧ h'.cache.metrics.calls = h.cache.metrics.calls

theorem Unread.refl (h : Host) : h.Unread h := ⟨rfl, rfl⟩

theorem Unread.trans {h h₁ h₂ : Host} (h₀₁ : h.Unread h₁) (h₁₂ : h₁.Unread h₂) : h.Unread h₂ :=
  ⟨h₁₂.1.trans h₀₁.1, h₁₂.2.trans h₀₁.2⟩

end Host

namespace Act

open Stage

variable {α : Type} {R : Host → Host → Prop} {s s' : Host}

theorem Stays.unread {f : Act α} (hf : Stays Host.Unread f) (hR : ∀ {s s'}, R s s' → s.Unread s')
    {a : α} (h : Host.stage.Amid R s f a s') : s.Unread s' :=
  Amid.keeps Host.Unread.refl (fun h₀₁ h₁₂ => h₀₁.trans h₁₂) hR (fun _ => ⟨rfl, rfl⟩) (hf s) h

-- The breaker's verdict moves the tier; the end of a call moves the tier and the error count.
theorem unread_callTier (call : BackendCall) : Stays Host.Unread (callTier call) := by
  refine stays_callTier (fun h => ?_) (fun a h => ?_)
  · unfold startCall
    split <;> exact ⟨rfl, rfl⟩
  · unfold endCall
    split
    · exact ⟨rfl, rfl⟩
    · exact ⟨rfl, DistributedTier.calls_complete _ _ _ _⟩

theorem unread_eligibility (r : Rule) (now : Instant) : Stays Host.Unread (eligibility r now) :=
  stays_eligibility unread_callTier (fun _ _ => ⟨rfl, rfl⟩) (fun _ _ => ⟨rfl, rfl⟩) r now

/-! ## The gates, run -/

/-- A halted program never ends. -/
theorem halt_never_ends {msg : String} [Inhabited α] {a : α} :
    ¬ Host.stage.Amid R s (halt msg) a s' := by
  intro h
  cases h with
  | write h =>
    cases h with
    | wait _ hready _ => simp at hready

/-- A condition evaluated to its end answers its pure evaluation against the source it found, and
leaves the source that evaluation left; one that leaves the calendar halts. -/
theorem evaluate_run {c : Condition} {now : Instant} {res : Except String Bool}
    (h : Host.stage.Amid R s (evaluate c now) res s') :
    ∃ src, c.evaluate s.source now = .ok (res, src) ∧
      s' = { s with source := src, requested := [] } := by
  unfold evaluate at h
  obtain ⟨found, s₁, hlook, hrest⟩ := Amid.of_bind h
  obtain ⟨hfound, rfl⟩ := Amid.read_done hlook
  rcases found with e | ⟨r, src⟩
  · exact absurd hrest halt_never_ends
  · have hdone := Amid.modify_bind hrest
    obtain ⟨rfl, rfl⟩ := Amid.done_iff.1 hdone
    exact ⟨src, hfound.symm, rfl⟩

/-- The rounds of a loop over conditions whose every round evaluates its condition and goes on
with `b₀` when it holds, or stops with `unmet c` when it does not, follow `FirstUnmet` from the
source they start with. -/
theorem Rounds.firstUnmet {β : Type} {b₀ : β} {unmet : Condition → β} {now : Instant}
    {body : Condition → β → Act (ForInStep β)}
    (hbody : ∀ c b s a s', Host.stage.Amid R s (body c b) a s' →
      ∃ res src, c.evaluate s.source now = .ok (res, src) ∧
        s' = { s with source := src, requested := [] } ∧
        (res = .ok true ∧ a = .yield b₀ ∨ res ≠ .ok true ∧ a = .done (unmet c)))
    {cs : List Condition} {b st : β} (h : Host.stage.Rounds R body s cs b st s') (hb : b = b₀) :
    ∃ o src, Condition.FirstUnmet now cs s.source o src ∧ st = o.elim b₀ unmet ∧
      { s with source := src, requested := s'.requested } = s' := by
  induction h with
  | nil => exact ⟨none, _, .nil, hb, rfl⟩
  | @stop s c cs b b' s' hround =>
    obtain ⟨res, src, hev, rfl, hstep⟩ := hbody c b s _ s' hround
    rcases hstep with ⟨-, hstep⟩ | ⟨hres, hstep⟩
    · cases hstep
    · cases hstep
      exact ⟨some c, src, .unmet hev hres, rfl, rfl⟩
  | @next s c cs b b₁ b' s₁ s' hround _ ih =>
    obtain ⟨res, src₁, hev, rfl, hstep⟩ := hbody c b s _ s₁ hround
    rcases hstep with ⟨rfl, hstep⟩ | ⟨-, hstep⟩
    · cases hstep
      obtain ⟨o, src, hfirst, hst, hs'⟩ := ih rfl
      exact ⟨o, src, .met hev hfirst, hst, hs'⟩
    · cases hstep

/-- The rounds of a loop over dependencies whose every round reads the dependency's marker and
stops with `miss d` when there is none, or goes on with `b₀`, are the marker reads of
`MarkersRun`. -/
theorem Rounds.markersRun {β : Type} {b₀ : β} {miss : String → β}
    {body : String → β → Act (ForInStep β)}
    (hbody : ∀ d b s a s', Host.stage.Amid R s (body d b) a s' →
      ∃ m, Host.stage.Amid R s (lastWarmed d) m s' ∧
        (m = none ∧ a = .done (miss d) ∨ m ≠ none ∧ a = .yield b₀))
    {ds : List String} {b st : β} (h : Host.stage.Rounds R body s ds b st s') (hb : b = b₀) :
    ∃ o, MarkersRun R s ds o s' ∧ st = o.elim b₀ miss := by
  induction h with
  | nil => exact ⟨none, .nil, hb⟩
  | @stop s d ds b b' s' hround =>
    obtain ⟨m, hread, hstep⟩ := hbody d b s _ s' hround
    rcases hstep with ⟨rfl, hstep⟩ | ⟨-, hstep⟩
    · cases hstep
      exact ⟨some d, .missing hread, rfl⟩
    · cases hstep
  | @next s d ds b b₁ b' s₁ s' hround _ ih =>
    obtain ⟨m, hread, hstep⟩ := hbody d b s _ s₁ hround
    rcases hstep with ⟨-, hstep⟩ | ⟨hsome, hstep⟩
    · cases hstep
    · cases hstep
      obtain ⟨t, rfl⟩ := Option.ne_none_iff_exists'.1 hsome
      obtain ⟨o, hmarkers, hst⟩ := ih rfl
      exact ⟨o, .found hread hmarkers, hst⟩

/-- A run of the gates to its end: the marker read, and the gates deciding as `Gated` says. -/
theorem eligibility_gated {r : Rule} {now : Instant} {e : Eligibility}
    (hrun : Host.stage.Amid R s (eligibility r now) e s') :
    ∃ m s₁, Host.stage.Amid R s (lastWarmed r.pattern) m s₁ ∧ Gated R r now m s₁ e := by
  unfold eligibility at hrun
  obtain ⟨m, s₁, hmark, hrest⟩ := Amid.of_bind hrun
  refine ⟨m, s₁, hmark, ?_⟩
  extract_lets gates at hrest
  -- past the marker's gate: the conditions against the source, then the dependencies' markers
  have hgates : ∀ {e s'}, r.Due now m → Host.stage.Amid R s₁ (gates ()) e s' → Gated R r now m s₁ e := by
    intro e s' hdue hgate
    obtain ⟨st, s₂, hconds, hrest⟩ := Amid.of_bind hgate
    obtain ⟨o, src, hfirst, rfl, hs₂⟩ := Rounds.firstUnmet (fun c b s a s' hround => by
      obtain ⟨res, s₃, heval, hstep⟩ := Amid.of_bind hround
      obtain ⟨src, hev, rfl⟩ := evaluate_run heval
      refine ⟨res, src, hev, ?_⟩
      split at hstep
      · obtain ⟨rfl, rfl⟩ := Amid.done_iff.1 hstep
        exact ⟨rfl, .inl ⟨rfl, rfl⟩⟩
      · next hne =>
        obtain ⟨rfl, rfl⟩ := Amid.done_iff.1 hstep
        exact ⟨rfl, .inr ⟨hne, rfl⟩⟩) (Amid.of_forIn hconds) rfl
    cases o with
    | some c =>
      obtain ⟨rfl, -⟩ := Amid.done_iff.1 hrest
      exact .conditionUnmet hdue hfirst
    | none =>
      obtain ⟨st, s₃, hdeps, hrest⟩ := Amid.of_bind hrest
      obtain ⟨o, hmarkers, rfl⟩ := Rounds.markersRun (fun d b s a s' hround => by
        obtain ⟨m, s₄, hread, hstep⟩ := Amid.of_bind hround
        refine ⟨m, ?_⟩
        split at hstep
        · next hnone =>
          obtain ⟨rfl, rfl⟩ := Amid.done_iff.1 hstep
          exact ⟨hread, .inl ⟨Option.isNone_iff_eq_none.1 hnone, rfl⟩⟩
        · next hsome =>
          obtain ⟨rfl, rfl⟩ := Amid.done_iff.1 hstep
          exact ⟨hread, .inr ⟨by simpa using hsome, rfl⟩⟩) (Amid.of_forIn hdeps) rfl
      cases o with
      | some d =>
        obtain ⟨rfl, -⟩ := Amid.done_iff.1 hrest
        exact .dependencyUnmet hdue hfirst hs₂ hmarkers
      | none =>
        obtain ⟨rfl, -⟩ := Amid.done_iff.1 hrest
        exact .eligible hdue hfirst hs₂ hmarkers
  split at hrest
  · next last =>
    split at hrest
    · next hsoon =>
      obtain ⟨rfl, -⟩ := Amid.done_iff.1 hrest
      exact .tooSoon (tooRecent_iff.1 hsoon)
    · next hold => exact hgates (Rule.due_of_not_tooRecent hold) hrest
  · next hnone => exact hgates (fun last hm => absurd hm (hnone last)) hrest

/-- The verdict of a rule's gates at `now` is the first gate failed: the marker, read as it ran, too
recent or ahead of `now`; otherwise the first condition, in order, that is false or refused, with
none after it asked; otherwise the first dependency, in order, whose marker cannot be read;
otherwise eligible. Business hours hold by the UTC hour, around the clock when they wrap. The gates
themselves change neither the memory tier nor the callers' counters, so a run amid others that
change neither leaves both as they were. -/
theorem eligibility_first_failing_gate {r : Rule} {now : Instant} {e : Eligibility}
    (hrun : Host.stage.Amid R s (eligibility r now) e s') :
    (∃ m s₁, Host.stage.Amid R s (lastWarmed r.pattern) m s₁ ∧ Gated R r now m s₁ e) ∧
      ((∀ {h h'}, R h h' → h.Unread h') → s.Unread s') ∧
      ∀ a b src, (Condition.businessHours a b).evaluate src now = .ok (.ok true, src) ↔
        if a ≤ b then a ≤ now.hour ∧ now.hour < b else a ≤ now.hour ∨ now.hour < b :=
  ⟨eligibility_gated hrun, fun hR => (unread_eligibility r now).unread hR hrun,
    fun _ _ _ => Condition.businessHours_holds_iff⟩

/-- A memory-only host with nothing cached. -/
def memoryOnlyHost : Host := { cache := TieredCache.create .lz4 {} false }

/-- A rule for the default business hours, with no dependency. -/
def officeHoursRule : Rule :=
  { pattern := "r", priority := .medium, frequencySecs := 60, conditions := [.nineToFive],
    refresh := .scripted {} }

theorem office_hours_rule_eligible_at_noon :
    ∃ s', Host.stage.Amid Host.Unread memoryOnlyHost (eligibility officeHoursRule wallClock)
        .eligible s' ∧
      (∃ m s₁, Host.stage.Amid Host.Unread memoryOnlyHost (lastWarmed officeHoursRule.pattern) m s₁ ∧
        Gated Host.Unread officeHoursRule wallClock m s₁ .eligible) ∧
      ((∀ {h h'}, Host.Unread h h' → h.Unread h') → memoryOnlyHost.Unread s') ∧
      ∀ a b src, (Condition.businessHours a b).evaluate src wallClock = .ok (.ok true, src) ↔
        if a ≤ b then a ≤ wallClock.hour ∧ wallClock.hour < b
        else a ≤ wallClock.hour ∨ wallClock.hour < b := by
  have hrun : (Host.stage.alone 50 memoryOnlyHost (eligibility officeHoursRule wallClock)).map
      Prod.fst = some .eligible := by rfl
  obtain ⟨⟨e, s'⟩, hres, rfl⟩ := Option.map_eq_some_iff.1 hrun
  have hamid := Amid.of_alone (R := Host.Unread) Host.Unread.refl (fun _ _ _ => ⟨rfl, rfl⟩)
    (fun _ _ => rfl) hres
  exact ⟨s', hamid, eligibility_first_failing_gate hamid⟩

/-! ## Gates at the calendar's dawn -/

/-- With no distributed tier, a marker is read from memory alone: there is none when memory holds
no live one. -/
theorem lastWarmed_memoryOnly {pattern : String} {m : Option Instant}
    (htier : s.cache.distributed = none) (hmem : s.cache.memory.peek (markerKey pattern) s.clock = none)
    (h : Host.stage.Amid R s (lastWarmed pattern) m s') : m = none := by
  unfold lastWarmed peekRaw at h
  obtain ⟨v, s₁, hpeek, hdone⟩ := Amid.of_bind h
  obtain ⟨found, s₂, hlook, hmiss⟩ := Amid.of_bind hpeek
  obtain ⟨hfound, rfl⟩ := Amid.read_done hlook
  rw [hfound, hmem] at hmiss
  obtain ⟨memOnly, s₃, hmo, hnone⟩ := Amid.of_bind hmiss
  obtain ⟨hmo, rfl⟩ := Amid.read_done hmo
  have honly : memOnly = true := by
    rw [hmo]
    simp [TieredCache.memoryOnly, htier]
  rw [honly] at hnone
  obtain ⟨rfl, rfl⟩ := Amid.done_iff.1 hnone
  exact (Amid.done_iff.1 hdone).1

/-- A rule asking for at least one active user, with no dependency. -/
def activeUsersRule : Rule :=
  { pattern := "r", priority := .medium, frequencySecs := 60, conditions := [.activeUsers 1],
    refresh := .scripted {} }

/-- Half an hour after the calendar's first instant. -/
def calendarDawn : Instant := ⟨Instant.minNanos + 1800 * Instant.nanosPerSecond⟩

/-- Half an hour after the calendar's first instant, an active-users condition looks an hour back,
out of the calendar: the gates of a rule asking for it halt and never answer, whatever the others
do meanwhile. -/
theorem early_active_users_gate_halts :
    ¬ ∃ e s', Host.stage.Amid (fun _ _ => True) memoryOnlyHost
      (eligibility activeUsersRule calendarDawn) e s' := by
  rintro ⟨e, s', hrun⟩
  obtain ⟨m, s₁, hmark, hgated⟩ := eligibility_gated hrun
  have hnone : m = none := lastWarmed_memoryOnly rfl rfl hmark
  have hover : ∀ src, (Condition.activeUsers 1).evaluate src calendarDawn = .error .subtractOverflow :=
    fun _ => rfl
  -- every verdict past the marker evaluates the condition, which has no value
  have hfirst : ∀ {o src'}, Condition.FirstUnmet calendarDawn activeUsersRule.conditions s₁.source o src' →
      False := fun h => by
    obtain ⟨res, src₁, hev⟩ := Condition.FirstUnmet.head_evaluates h
    rw [hover] at hev
    cases hev
  cases hgated with
  | tooSoon _ => cases hnone
  | conditionUnmet _ h => exact hfirst h
  | dependencyUnmet _ h _ _ => exact hfirst h
  | eligible _ h _ _ => exact hfirst h

end Act

end TierCache
