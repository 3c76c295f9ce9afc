import Mathlib
import TierCache.Proofs.UserWarming
import TierCache.Proofs.PredictorTraining
import TierCache.Proofs.ServiceFrame

/-!
# The analysis pass

A pass refreshes the patterns from the source, prunes, trains and warms the users the predictor
names (`Act.PassRun`); each failing step is absorbed on its own, and the pass halts only when the
calendar cannot hold its lookback.

Main statement: `analysis_pass_warms_predicted_users`.
-/

set_option autoImplicit false

namespace TierCache

/-! ## Predictions -/

namespace Predictor

/-- What a prediction may name from a tracker: tracked users in increasing id order, at most
`maxPredicted` of them, and none before a training has succeeded. -/
structure Answer (pr : Predictor) (t : AccessTracker) (ids : List String) : Prop where
  increasing : ids.Pairwise (· < ·)
  tracked : ∀ u ∈ ids, u ∈ t.patterns.map (·.userId)
  bounded : ids.length ≤ pr.maxPredicted
  untrained : pr.model = none → ids = []

theorem predict_sublist (pr : Predictor) (t : AccessTracker) (now : Instant) :
    (pr.predict t now).Sublist (t.patterns.map (·.userId)) := by
  unfold predict
  split
  · exact List.nil_sublist _
  · exact (List.take_sublist _ _).trans (List.filter_sublist.map _)

theorem length_predict_le (pr : Predictor) (t : AccessTracker) (now : Instant) :
    (pr.predict t now).length ≤ pr.maxPredicted := by
  unfold predict
  split
  · exact Nat.zero_le _
  · exact List.length_take_le _ _

/-- Over a tracker as its operations keep it, one pattern per user in id order, a prediction
names what `Answer` allows. -/
theorem predict_answer {pr : Predictor} {t : AccessTracker} (ht : t.Wf) (now : Instant) :
    pr.Answer t (pr.predict t now) where
  increasing := ht.sorted.sublist (pr.predict_sublist t now)
  tracked _ hu := (pr.predict_sublist t now).subset hu
  bounded := pr.length_predict_le t now
  untrained hm := by simp [predict, hm]

end Predictor

/-! ## Refreshing and training -/

/-- A refresh changes only the patterns, not the tracker's settings. -/
theorem AccessTracker.refresh_settings {t t' : AccessTracker} {users : List Activity} {now : Instant}
    {n : Nat} (hr : t.refresh users now = .ok (n, t')) :
    t'.historyLen = t.historyLen ∧ t'.retentionSecs = t.retentionSecs := by
  obtain ⟨since, -, hfold⟩ := Except.bind_eq_ok hr
  clear hr
  cases hfold
  generalize (DataSource.mk users [] 0 0 false 0).recentlyActive since = recent
  induction recent generalizing t with
  | nil => exact ⟨rfl, rfl⟩
  | cons u rest ih =>
    rw [List.foldl_cons]
    split
    · exact ih
    · exact ih

/-- How a pass's refresh leaves the patterns `t` and how many users it reports seen: as they were,
with none seen, when the source refuses the query, and otherwise as the refresh records the users
the source reports active. -/
inductive Refreshed (t : AccessTracker) (src : DataSource) (now : Instant) :
    Nat → AccessTracker → Prop
  | refused : src.failing = true → Refreshed t src now 0 t
  | recorded {n : Nat} {t' : AccessTracker} : src.failing = false →
      t.refresh src.users now = .ok (n, t') → Refreshed t src now n t'

theorem Refreshed.wf {t t' : AccessTracker} {src : DataSource} {now : Instant} {n : Nat}
    (h : Refreshed t src now n t') (ht : t.Wf) : t'.Wf := by
  cases h with
  | refused => exact ht
  | recorded _ hr => exact (ht.refresh hr).1

/-- A refused refresh leaves the patterns as they were. -/
theorem Refreshed.eq_of_failing {t t' : AccessTracker} {src : DataSource} {now : Instant} {n : Nat}
    (h : Refreshed t src now n t') (hf : src.failing = true) : t' = t := by
  cases h with
  | refused => rfl
  | recorded hok => simp [hok] at hf

/-- How a pass's training leaves the predictor `pr`, and whether it reports a model trained: with
the model it fits, or as it was when it refuses. -/
inductive Trained (pr : Predictor) (t : AccessTracker) (now : Instant) : Bool → Predictor → Prop
  | fitted {m : PredictorModel} {pr' : Predictor} : pr.train t now = .ok (m, pr') →
      Trained pr t now true pr'
  | kept {e : Predictor.TrainingFault} : pr.train t now = .error e → Trained pr t now false pr

/-- A training that succeeds replaces the model by the one fitted to the patterns at `now`, and
nothing else; one that refuses keeps the predictor, its last model included. -/
theorem Trained.eq_ite {pr pr' : Predictor} {t : AccessTracker} {now : Instant} {b : Bool}
    (h : Trained pr t now b pr') :
    pr' = if b then { pr with model := some (pr.fit t now) } else pr := by
  cases h with
  | kept => rfl
  | fitted htrain =>
    rw [Predictor.train_eq] at htrain
    split_ifs at htrain
    cases htrain
    rfl

/-- A pass reports a model trained exactly when the training accepted the patterns. -/
theorem Trained.trained_eq {pr pr' : Predictor} {t : AccessTracker} {now : Instant} {b : Bool}
    (h : Trained pr t now b pr') : b = (pr.train t now).toBool := by
  cases h with
  | fitted htrain => rw [htrain]; rfl
  | kept htrain => rw [htrain]; rfl

theorem Trained.maxPredicted {pr pr' : Predictor} {t : AccessTracker} {now : Instant} {b : Bool}
    (h : Trained pr t now b pr') : pr'.maxPredicted = pr.maxPredicted := by
  rw [h.eq_ite]
  split <;> rfl

/-! ## What a pass keeps -/

namespace Warmer

/-- The part of the scheduler an analysis pass reads and writes: the patterns, the predictor and
the two counters of passes. -/
structure Insight where
  tracker : AccessTracker
  predictor : Predictor
  analysisPasses : Nat
  predictedUsersWarmed : Nat

def insight (w : Warmer) : Insight :=
  ⟨w.tracker, w.predictor, w.counters.analysisPasses, w.counters.predictedUsersWarmed⟩

/-- The scheduler once a pass has counted itself and kept the patterns `t` and the predictor
`pr`. -/
def analysed (w : Warmer) (t : AccessTracker) (pr : Predictor) : Warmer :=
  { w.count (fun c => { c with analysisPasses := c.analysisPasses + 1 }) with
    tracker := t, predictor := pr }

end Warmer

/-- A change that leaves the scheduler's patterns, predictor and pass counters as they were. -/
def Host.KeepsInsight (h h' : Host) : Prop :=
  h'.warmer.map Warmer.insight = h.warmer.map Warmer.insight

namespace Act

open Stage

variable {α : Type} {R : Host → Host → Prop} {s s' : Host}

/-- A cache-aside write changes the cache and nothing of the scheduler. -/
theorem keepsInsight_setJson (key : String) (v : Json) (ttlMs : Option Nat) :
    Stays Host.KeepsInsight (setJson key v ttlMs .cacheAside) :=
  stays_setRaw (fun _ _ _ => rfl) _ _ _ _ fun h => absurd h (by decide)

-- The scheduler's insight is an equation between states, so it composes and the others' moves
-- keep it whenever `R` does.
theorem keepsInsight_of_amid (hR : ∀ h h', R h h' → Host.KeepsInsight h h') {f : Act α} {a : α}
    (hf : Stays Host.KeepsInsight f) (h : Host.stage.Amid R s f a s') : Host.KeepsInsight s s' :=
  Stage.Amid.keeps (fun _ => rfl) (fun h₁ h₂ => h₂.trans h₁) (fun hr => hR _ _ hr) (fun _ => by rfl)
    (hf s) h

theorem UserWarm.keepsInsight (hR : ∀ h h', R h h' → Host.KeepsInsight h h') {user : String}
    (h : UserWarm R user s s') : Host.KeepsInsight s s' := by
  cases h with
  | refused => rfl
  | written _ h₁ h₂ h₃ =>
    have k₁ := keepsInsight_of_amid hR (keepsInsight_setJson _ _ _) h₁
    have k₂ := keepsInsight_of_amid hR (keepsInsight_setJson _ _ _) h₂
    have k₃ := keepsInsight_of_amid hR (keepsInsight_setJson _ _ _) h₃
    exact k₃.trans (k₂.trans k₁)

theorem UsersWarm.keepsInsight (hR : ∀ h h', R h h' → Host.KeepsInsight h h') {us served : List String}
    (h : UsersWarm R s us served s') : Host.KeepsInsight s s' := by
  induction h with
  | nil => rfl
  | refused _ hu _ ih => exact ih.trans (hu.keepsInsight hR)
  | served _ hu _ ih => exact ih.trans (hu.keepsInsight hR)

/-! ## A pass run amid others -/

/-- How a pass from `h`, whose scheduler was `w`, ends in `h'` with `out`: the patterns `t` are the
refreshed ones pruned, `pr` is the predictor as the training leaves it, and the users it names
from `t` are warmed in turn, `served` being those the source served. Besides the users' keys, the
pass counts itself and its query, keeps `t` and `pr`, and at its end adds the users served to the
users warmed by prediction. -/
structure PassRun (R : Host → Host → Prop) (now : Instant) (w : Warmer) (h : Host) (t : AccessTracker)
    (pr : Predictor) (served : List String) (out : AnalysisOutcome) (h' : Host) : Prop where
  refreshed : ∃ t₁, Refreshed w.tracker h.source now out.usersSeen t₁ ∧
    t₁.prune now = .ok (out.usersPruned, t)
  trained : Trained w.predictor t now out.trained pr
  predicted : out.predicted = (pr.predict t now).length
  warmed : out.warmed = served.length
  warms : ∃ h₂, UsersWarm R { h.afterQuery with warmer := some (w.analysed t pr) }
      (pr.predict t now) served h₂ ∧
    h' = { h₂ with warmer := h₂.warmer.map (·.count fun c =>
      { c with predictedUsersWarmed := c.predictedUsersWarmed + served.length }), requested := [] }

/-- Every run of a pass to its end is a `PassRun`. -/
theorem analyze_run {now : Instant} {out : AnalysisOutcome} {w : Warmer} (hw : s.warmer = some w)
    (hrun : Host.stage.Amid R s (analyze now) out s') : ∃ t pr served, PassRun R now w s t pr served out s' := by
  unfold analyze at hrun
  have hrest := Amid.modify_bind hrun
  extract_lets warmed₀ afterSeen afterCheck at hrest
  -- what follows the refresh, from a host whose scheduler is `w₁`
  have hseen : ∀ seen (base : Host) (w₁ : Warmer) out s',
      Host.stage.Amid R { base with warmer := some w₁ } (afterSeen seen) out s' →
      ∃ t pr served h₂, w₁.tracker.prune now = .ok (out.usersPruned, t) ∧
        Trained w₁.predictor t now out.trained pr ∧ out.usersSeen = seen ∧
        out.predicted = (pr.predict t now).length ∧ out.warmed = served.length ∧
        UsersWarm R { base with warmer := some { w₁ with tracker := t, predictor := pr }, requested := [] }
          (pr.predict t now) served h₂ ∧
        s' = { h₂ with warmer := h₂.warmer.map (·.count fun c =>
          { c with predictedUsersWarmed := c.predictedUsersWarmed + served.length }), requested := [] } := by
    intro seen base w₁ out s' hrun
    simp only [afterSeen] at hrun
    obtain ⟨pruning, s₂, hlook, hrest⟩ := Amid.of_bind hrun
    obtain ⟨rfl, rfl⟩ := Amid.read_done hlook
    cases hprune : w₁.tracker.prune now with
    | error e =>
      simp only [hprune, Option.map_some] at hrest
      obtain ⟨_, _, hhalt, _⟩ := Amid.of_bind hrest
      exact absurd hhalt halt_never_ends
    | ok p =>
      obtain ⟨pruned, t⟩ := p
      simp only [hprune, Option.map_some] at hrest
      have hrest := Amid.modify_bind hrest
      have hrest := Amid.modifyGet_bind hrest
      -- the users predicted are warmed in turn, each counting one when served
      obtain ⟨predicted, s₃, hlook, hrest⟩ := Amid.of_bind hrest
      obtain ⟨rfl, rfl⟩ := Amid.read_done hlook
      obtain ⟨warmed, s₄, hwarm, hrest⟩ := Amid.of_bind hrest
      obtain ⟨served, hs, rfl⟩ := Rounds.usersWarm (k := 1) (fun u b h r h' hround => by
        obtain ⟨w, h₃, hw, hstep⟩ := Amid.of_bind hround
        split at hstep
        · obtain ⟨rfl, rfl⟩ := Amid.done_iff.1 hstep
          exact ⟨w, hw, by simp [*]⟩
        · obtain ⟨rfl, rfl⟩ := Amid.done_iff.1 hstep
          exact ⟨w, hw, by simp [*]⟩) (Amid.of_forIn hwarm)
      have hdone := Amid.modify_bind hrest
      simp only [warmed₀, zero_add, one_mul] at hdone
      obtain ⟨rfl, rfl⟩ := Amid.done_iff.1 hdone
      -- the training fitted a model, or kept the predictor
      cases htrain : w₁.predictor.train t now with
      | ok mp =>
        obtain ⟨m, pr⟩ := mp
        simp only [Host.stage_takeJobs, Option.map_some, htrain] at hs
        refine ⟨t, pr, served, s₄, rfl, ?_, rfl, ?_, rfl, hs, rfl⟩
        · simpa only [Host.stage_takeJobs, Option.map_some, htrain] using Trained.fitted htrain
        · simp only [Host.stage_takeJobs, Option.map_some, htrain, Option.getD_some]
      | error e =>
        simp only [Host.stage_takeJobs, Option.map_some, htrain] at hs
        refine ⟨t, w₁.predictor, served, s₄, rfl, ?_, rfl, ?_, rfl, hs, rfl⟩
        · simpa only [Host.stage_takeJobs, Option.map_some, htrain] using Trained.kept htrain
        · simp only [Host.stage_takeJobs, Option.map_some, htrain, Option.getD_some]
  simp only [Host.stage_takeJobs, hw, Option.map_some] at hrest
  split at hrest
  · -- a pass that cannot look an hour back halts
    obtain ⟨_, _, hhalt, _⟩ := Amid.of_bind hrest
    exact absurd hhalt halt_never_ends
  · next hback =>
    simp only [afterCheck] at hrest
    obtain ⟨q, s₁, hq, hrest⟩ := Amid.of_bind hrest
    obtain ⟨rfl, rfl⟩ := query_run hq
    cases hfail : s.source.failing with
    | true =>
      simp only [hfail, if_true] at hrest
      obtain ⟨t, pr, served, h₂, hprune, htrained, hseen₀, hpred, hwarmed, hs, rfl⟩ :=
        hseen 0 s.afterQuery _ out s' hrest
      refine ⟨t, pr, served, ⟨w.tracker, ?_, hprune⟩, htrained, hpred, hwarmed, h₂, hs, rfl⟩
      rw [hseen₀]
      exact .refused hfail
    | false =>
      simp only [hfail, Bool.false_eq_true, if_false] at hrest
      have hrest := Amid.modifyGet_bind hrest
      -- the hour before `now` is in the calendar, so the refresh records what the source reports
      obtain ⟨since, hsince⟩ : ∃ since, now.back AccessTracker.lookbackSecs = .ok since := by
        cases hb : now.back AccessTracker.lookbackSecs with
        | error e => simp only [hb] at hback; exact absurd rfl hback
        | ok since => exact ⟨since, rfl⟩
      cases hr : w.tracker.refresh s.source.users now with
      | error e =>
        simp [AccessTracker.refresh, hsince] at hr
      | ok p =>
        obtain ⟨n, t₁⟩ := p
        simp only [Host.stage_takeJobs, Host.afterQuery, Warmer.count, hr] at hrest
        obtain ⟨t, pr, served, h₂, hprune, htrained, hseen₀, hpred, hwarmed, hs, rfl⟩ :=
          hseen n s.afterQuery { w.count (fun c => { c with analysisPasses := c.analysisPasses + 1 }) with
            tracker := t₁ } out s' hrest
        refine ⟨t, pr, served, ⟨t₁, ?_, hprune⟩, htrained, hpred, hwarmed, h₂, hs, rfl⟩
        rw [hseen₀]
        exact .recorded hfail hr

namespace PassRun

variable {now : Instant} {w : Warmer} {t : AccessTracker} {pr : Predictor} {served : List String}
  {out : AnalysisOutcome}

theorem wf (hpass : PassRun R now w s t pr served out s') (hwf : w.tracker.Wf) : t.Wf := by
  obtain ⟨t₁, hrefreshed, hprune⟩ := hpass.refreshed
  exact (hrefreshed.wf hwf).prune hprune

theorem warmed_le (hpass : PassRun R now w s t pr served out s') : out.warmed ≤ out.predicted := by
  obtain ⟨h₂, hwarm, -⟩ := hpass.warms
  rw [hpass.warmed, hpass.predicted]
  exact hwarm.sublist.length_le

theorem predicted_le (hpass : PassRun R now w s t pr served out s') :
    out.predicted ≤ w.predictor.maxPredicted := by
  rw [hpass.predicted, ← hpass.trained.maxPredicted]
  exact pr.length_predict_le t now

/-- Amid others that leave the scheduler's insight alone, a pass leaves its patterns and predictor
in use, one more pass counted and the users served added to those warmed by prediction. -/
theorem insight (hpass : PassRun R now w s t pr served out s')
    (hR : ∀ h h', R h h' → Host.KeepsInsight h h') :
    s'.warmer.map Warmer.insight = some ⟨t, pr, w.counters.analysisPasses + 1,
      w.counters.predictedUsersWarmed + out.warmed⟩ := by
  obtain ⟨h₂, hwarm, rfl⟩ := hpass.warms
  have hkeep : h₂.warmer.map Warmer.insight = some (w.analysed t pr).insight := hwarm.keepsInsight hR
  cases hw₂ : h₂.warmer with
  | none => simp [hw₂] at hkeep
  | some w₂ =>
    simp only [hw₂, Option.map_some, Option.some.injEq] at hkeep
    simp only [Option.map_some, Warmer.insight, Warmer.count, hpass.warmed] at hkeep ⊢
    simp only [Warmer.analysed, Warmer.count, Warmer.Insight.mk.injEq] at hkeep
    obtain ⟨rfl, rfl, hpasses, hwarmed⟩ := hkeep
    rw [hpasses, hwarmed]

end PassRun

theorem exists_amid_bind {β : Type} {h h₁ : Host} {f : Act α} {g : α → Act β} {a : α}
    (hf : Host.stage.Amid R h f a h₁) (hg : ∃ b h', Host.stage.Amid R h₁ (g a) b h') :
    ∃ b h', Host.stage.Amid R h (f >>= g) b h' := by
  obtain ⟨b, h', hrest⟩ := hg
  exact ⟨b, h', hf.bind hrest⟩

/-- A pass ends whenever the others let the clock move, once the calendar holds the hour before it
and the retention window: none of its steps halts then, and its warms wait only for deadlines. -/
theorem analyze_finishes {now since cutoff : Instant} {w : Warmer}
    (htick : ∀ h t, h.clock ≤ t → R h { h with clock := t }) (hw : s.warmer = some w)
    (hsince : now.back AccessTracker.lookbackSecs = .ok since)
    (hcutoff : now.back w.tracker.retentionSecs = .ok cutoff) :
    ∃ out s', Host.stage.Amid R s (analyze now) out s' := by
  unfold analyze
  extract_lets warmed₀ afterSeen afterCheck
  -- from the refresh on, with patterns kept for as long as they were
  have hseen : ∀ seen (st : Host) (w₁ : Warmer), st.warmer = some w₁ →
      w₁.tracker.retentionSecs = w.tracker.retentionSecs →
      ∃ out s', Host.stage.Amid R st (afterSeen seen) out s' := by
    intro seen st w₁ hst hret
    simp only [afterSeen]
    obtain ⟨pruned, t, hp⟩ : ∃ pruned t, w₁.tracker.prune now = .ok (pruned, t) := by
      simp [AccessTracker.prune, hret, hcutoff]
    apply exists_amid_bind (.read .done)
    simp only [hst, Option.map_some, hp]
    apply exists_amid_bind (.write .done)
    -- from the pruned patterns on, nothing halts
    refine Finishes.bind (finishes_pure _) (fun _ => ?_) _
    refine (finishes_modifyGet _).bind fun _ => (finishes_look _).bind fun _ => ?_
    refine (Finishes.forIn fun _ _ => (finishes_warmUser htick _).bind fun _ => ?_).bind
      fun _ => (finishes_modify _).bind fun _ => finishes_pure _
    split <;> exact finishes_pure _
  apply exists_amid_bind (.write .done)
  simp only [hsince, Except.toOption, Option.isNone_some, Bool.false_eq_true, if_false, afterCheck]
  apply exists_amid_bind (.read (.write .done))
  cases hfail : s.source.failing
  · simp only [Host.stage_takeJobs, hw, Option.map_some, hfail, Bool.false_eq_true, if_false]
    obtain ⟨n, t₁, hr⟩ : ∃ n t₁, w.tracker.refresh s.source.users now = .ok (n, t₁) := by
      simp [AccessTracker.refresh, hsince]
    apply exists_amid_bind (.read (.write .done))
    simp only [Host.stage_takeJobs, Warmer.count, hr]
    exact hseen n _ _ rfl (AccessTracker.refresh_settings hr).2
  · simp only [Host.stage_takeJobs, hw, Option.map_some, hfail, if_true]
    exact hseen 0 _ _ rfl rfl

/-- An analysis pass, amid others that leave the scheduler's patterns, predictor and pass counters
alone and may move the clock, on a host whose scheduler `w` keeps its patterns as its operations
do, with the hour before `now` and the retention window in the calendar. Over any tracker so kept
a prediction names tracked users in increasing id order, at most `maxPredicted` of them and none
before a training has succeeded. The pass ends; and whenever it ends with `out`, it has run as
`PassRun` says: the patterns `t` are the refreshed ones pruned, `pr` is the predictor the training
leaves, the users `pr` names from `t` are warmed in turn with three keys written for each one
the source served, and `out` counts those named and those served, the latter no more than the
former and the former no more than the predictor's bound. The training replaces the model by the
one fitted to `t` at `now` when it succeeds, and otherwise leaves the predictor as it was;
afterwards `t` and `pr` are in use, one more pass is counted and the users served add to those
warmed by prediction. -/
theorem analysis_pass_warms_predicted_users {s : Host} {now since cutoff : Instant} {w : Warmer}
    (hw : s.warmer = some w) (hwf : w.tracker.Wf)
    (htick : ∀ h t, h.clock ≤ t → R h { h with clock := t })
    (hR : ∀ h h', R h h' → Host.KeepsInsight h h')
    (hsince : now.back AccessTracker.lookbackSecs = .ok since)
    (hcutoff : now.back w.tracker.retentionSecs = .ok cutoff) :
    (∀ (pr : Predictor) (t : AccessTracker) (i : Instant), t.Wf → pr.Answer t (pr.predict t i)) ∧
    (∃ out s', Host.stage.Amid R s (analyze now) out s') ∧
    ∀ out s', Host.stage.Amid R s (analyze now) out s' →
      ∃ t pr served, PassRun R now w s t pr served out s' ∧ pr.Answer t (pr.predict t now) ∧
        out.warmed ≤ out.predicted ∧ out.predicted ≤ w.predictor.maxPredicted ∧
        pr = (if out.trained then { w.predictor with model := some (w.predictor.fit t now) }
          else w.predictor) ∧
        s'.warmer.map Warmer.insight =
          some ⟨t, pr, w.counters.analysisPasses + 1, w.counters.predictedUsersWarmed + out.warmed⟩ := by
  refine ⟨fun _ _ i ht => Predictor.predict_answer ht i, analyze_finishes htick hw hsince hcutoff,
    fun out s' hrun => ?_⟩
  obtain ⟨t, pr, served, hpass⟩ := analyze_run hw hrun
  exact ⟨t, pr, served, hpass, Predictor.predict_answer (hpass.wf hwf) now, hpass.warmed_le, hpass.predicted_le, hpass.trained.eq_ite,
    hpass.insight hR⟩

/-- Half an hour before the loops' instant. -/
def wallClockHalfHourAgo : Instant := ⟨wallClock.nanos - 1800 * Instant.nanosPerSecond⟩

/-- Thirty days, the default retention, before the loops' instant. -/
def wallClockMonthAgo : Instant := ⟨wallClock.nanos - 30 * 86400 * Instant.nanosPerSecond⟩

/-- The patterns once one user has been seen, half an hour before the loops' instant. -/
def oneUserTracker : AccessTracker :=
  emptyTracker.recordAccess "u0" wallClockHalfHourAgo (some "user:u0:profile")

theorem oneUserTracker_wf : oneUserTracker.Wf :=
  AccessTracker.Wf.recordAccess ⟨.nil, fun _ hp => (List.not_mem_nil hp).elim⟩ _ _ _

theorem wallClock_back_retention :
    wallClock.back oneUserTracker.retentionSecs = .ok wallClockMonthAgo := by
  decide

/-- A scheduler with one group to find, whose predictor was trained on `oneUserTracker` when that
user was seen. -/
def trainedWarmer : Warmer :=
  let pr := Predictor.create 1 1 100
  { registry := { markerTtlMs := 86400000 }, settings := {}, permits := 8, tracker := oneUserTracker,
    predictor := { pr with model := some (pr.fit oneUserTracker wallClockHalfHourAgo) } }

/-- `trainedWarmer` beside a source that refuses every query. -/
def refusingSourceHost : Host :=
  { memoryOnlyHost with source := { failing := true }, warmer := some trainedWarmer }

theorem refusing_source_pass_warms_predicted_users :
    refusingSourceHost.warmer = some trainedWarmer ∧ trainedWarmer.tracker.Wf ∧
      (∀ h t, h.clock ≤ t → Host.KeepsInsight h { h with clock := t }) ∧
      (∀ h h', Host.KeepsInsight h h' → Host.KeepsInsight h h') ∧
      wallClock.back AccessTracker.lookbackSecs = .ok wallClockHourAgo ∧
      wallClock.back trainedWarmer.tracker.retentionSecs = .ok wallClockMonthAgo ∧
      (∀ (pr : Predictor) (t : AccessTracker) (i : Instant), t.Wf → pr.Answer t (pr.predict t i)) ∧
      (∃ out s', Host.stage.Amid Host.KeepsInsight refusingSourceHost (analyze wallClock) out s') ∧
      ∀ out s', Host.stage.Amid Host.KeepsInsight refusingSourceHost (analyze wallClock) out s' →
        ∃ t pr served, PassRun Host.KeepsInsight wallClock trainedWarmer refusingSourceHost t pr served
            out s' ∧ pr.Answer t (pr.predict t wallClock) ∧
          out.warmed ≤ out.predicted ∧ out.predicted ≤ trainedWarmer.predictor.maxPredicted ∧
          pr = (if out.trained then
              { trainedWarmer.predictor with model := some (trainedWarmer.predictor.fit t wallClock) }
            else trainedWarmer.predictor) ∧
          s'.warmer.map Warmer.insight = some ⟨t, pr, trainedWarmer.counters.analysisPasses + 1,
            trainedWarmer.counters.predictedUsersWarmed + out.warmed⟩ :=
  ⟨rfl, oneUserTracker_wf, fun _ _ _ => rfl, fun _ _ h => h, wallClock_back_lookback,
    wallClock_back_retention,
    analysis_pass_warms_predicted_users rfl oneUserTracker_wf (fun _ _ _ => rfl) (fun _ _ h => h)
      wallClock_back_lookback wallClock_back_retention⟩

/-- On `refusingSourceHost`, amid others that leave the scheduler's insight alone, the pass at the
loops' instant ends, and however it runs the refresh is refused and yet the training runs again on
the patterns kept: the model in use afterwards is the one fitted at the pass's instant, not the one
trained half an hour before. -/
theorem refused_refresh_refits_model :
    refusingSourceHost.source.failing = true ∧
      refusingSourceHost.warmer.map (·.predictor.model.map (·.trainedAt)) =
        some (some wallClockHalfHourAgo) ∧
      (∃ out s', Host.stage.Amid Host.KeepsInsight refusingSourceHost (analyze wallClock) out s') ∧
      ∀ out s', Host.stage.Amid Host.KeepsInsight refusingSourceHost (analyze wallClock) out s' →
        out.trained = true ∧
          s'.warmer.map (·.predictor.model.map (·.trainedAt)) = some (some wallClock) := by
  refine ⟨rfl, rfl, analyze_finishes (fun _ _ _ => rfl) rfl wallClock_back_lookback wallClock_back_retention,
    fun out s' hrun => ?_⟩
  obtain ⟨t, pr, served, hpass⟩ := analyze_run rfl hrun
  obtain ⟨t₁, hrefreshed, hprune⟩ := hpass.refreshed
  rw [hrefreshed.eq_of_failing rfl] at hprune
  -- the patterns kept still train
  have hfits : ((trainedWarmer.tracker.prune wallClock).toOption.map fun p =>
      (trainedWarmer.predictor.train p.2 wallClock).toBool) = some true := by
    decide
  simp only [hprune, Except.toOption, Option.map_some, Option.some.injEq] at hfits
  have htrained : out.trained = true := hpass.trained.trained_eq.trans hfits
  have hpr := hpass.trained.eq_ite
  rw [htrained, if_pos rfl] at hpr
  have hins := hpass.insight fun _ _ h => h
  refine ⟨htrained, ?_⟩
  cases hs : s'.warmer with
  | none => simp [hs] at hins
  | some w' =>
    simp only [hs, Option.map_some, Option.some.injEq, Warmer.insight, Warmer.Insight.mk.injEq]
      at hins ⊢
    rw [hins.2.1, hpr]
    rfl

end Act

end TierCache
