import Mathlib
import TierCache.Warming.Predictor

/-!
# Training the predictor

What training guarantees rests on how its scans and k-means rounds are built, not on the feature
values (`nearestCentre_lt`, `kmeans_sizes`, `largestGroup_firstLargest`).

Main statement: `training_refuses_or_fits`.
-/

set_option autoImplicit false

namespace TierCache

/-! ## Scans for an index -/

-- The index a fold keeps is the one it started with, or that of an element it went over.
theorem foldl_index_lt {α β : Type} {f : Nat × β × Nat → α → Nat × β × Nat} {n : Nat}
    (hf : ∀ b d i x, (f (b, d, i) x).2.2 = i + 1 ∧ ((f (b, d, i) x).1 = b ∨ (f (b, d, i) x).1 = i))
    {l : List α} {b : Nat} {d : β} {i : Nat} (hb : b < n) (hi : i + l.length ≤ n) :
    (l.foldl f (b, d, i)).1 < n := by
  induction l generalizing b d i with
  | nil => exact hb
  | cons x l ih =>
    rw [List.foldl_cons]
    obtain ⟨hstep, hkeep⟩ := hf b d i x
    generalize f (b, d, i) x = r at hstep hkeep ⊢
    obtain ⟨b', d', i'⟩ := r
    simp only at hstep hkeep
    subst hstep
    simp only [List.length_cons] at hi
    exact ih (by omega) (by omega)

/-- The nearest centre is one of the centres, when there is one. -/
theorem nearestCentre_lt {centres : Array Features} (hc : 0 < centres.size) (p : Features) :
    nearestCentre centres p < centres.size := by
  unfold nearestCentre
  dsimp only
  rw [← Array.foldl_toList]
  apply foldl_index_lt _ hc (by simp)
  intro b d i x
  split <;> exact ⟨rfl, by simp⟩

/-! ## k-means -/

theorem seedCentres_size (points : Array Features) (n : Nat) (centres : Array Features) :
    (seedCentres points n centres).size = centres.size + n := by
  induction n generalizing centres with
  | zero => rfl
  | succ n ih =>
    rw [seedCentres, ih, Array.size_push]
    omega

/-- Every point has a centre, one of the first `k`. -/
def Labelled (k : Nat) (assigned : Array (Option Nat)) : Prop :=
  ∀ a ∈ assigned, ∃ c, a = some c ∧ c < k

/-- The rounds of assignment and re-centring keep the centres' number, and after at least one
round, or from an assignment of every point, every point has a centre. -/
theorem lloyd_spec (points : Array Features) (rounds : Nat) (centres : Array Features)
    (assigned : Array (Option Nat)) (hc : 0 < centres.size)
    (h : 0 < rounds ∨ Labelled centres.size assigned ∧ assigned.size = points.size) :
    (lloyd points rounds centres assigned).1.size = centres.size ∧
      Labelled centres.size (lloyd points rounds centres assigned).2 ∧
      (lloyd points rounds centres assigned).2.size = points.size := by
  induction rounds generalizing centres assigned with
  | zero =>
    rcases h with h | ⟨hl, hs⟩
    · omega
    · exact ⟨rfl, hl, hs⟩
  | succ rounds ih =>
    have hnext : Labelled centres.size (points.map fun p => some (nearestCentre centres p)) := by
      intro a ha
      obtain ⟨p, -, rfl⟩ := Array.mem_map.1 ha
      exact ⟨_, rfl, nearestCentre_lt hc p⟩
    rw [lloyd]
    dsimp only
    split
    · -- no point changed its centre: the assignment kept is the one just made
      next heq =>
      rw [beq_iff_eq] at heq
      rw [← heq]
      exact ⟨rfl, hnext, by simp⟩
    · have hsize : (centres.mapIdx fun c old => recentre points
          ((points.map fun p => some (nearestCentre centres p)).map (·.getD 0)) c old).size =
          centres.size := Array.size_mapIdx
      obtain ⟨h1, h2, h3⟩ := ih _ _ (hsize ▸ hc) (.inr ⟨hsize ▸ hnext, by simp⟩)
      exact ⟨h1.trans hsize, hsize ▸ h2, h3⟩

theorem sum_modify_succ {l : List Nat} {i : Nat} (h : i < l.length) :
    (l.modify i (· + 1)).sum = l.sum + 1 := by
  induction l generalizing i with
  | nil => simp at h
  | cons x l ih =>
    cases i with
    | zero =>
      rw [List.modify_zero_cons, List.sum_cons, List.sum_cons]
      omega
    | succ i =>
      rw [List.modify_succ_cons, List.sum_cons, List.sum_cons, ih (by simpa using h)]
      omega

-- Counting every point into the size of its centre: the sizes add up to the points counted.
theorem foldl_tally {f : Array Nat → Option Nat → Array Nat}
    (hf : ∀ sizes c, f sizes (some c) = sizes.modify c (· + 1)) {n : Nat} {l : List (Option Nat)}
    (hl : ∀ a ∈ l, ∃ c, a = some c ∧ c < n) {sizes : Array Nat} (hs : sizes.size = n) {total : Nat}
    (htotal : sizes.toList.sum + l.length = total) :
    (l.foldl f sizes).size = n ∧ (l.foldl f sizes).toList.sum = total := by
  induction l generalizing sizes with
  | nil => exact ⟨hs, htotal⟩
  | cons a l ih =>
    obtain ⟨c, rfl, hc⟩ := hl a List.mem_cons_self
    rw [List.foldl_cons, hf]
    refine ih (fun a ha => hl a (List.mem_cons_of_mem _ ha)) (by simpa using hs) ?_
    rw [Array.toList_modify, sum_modify_succ (by simpa [hs] using hc), ← htotal, List.length_cons]
    omega

/-- k-means on at least one point, for `k` at least one: `min k n` centres, one size per centre,
and the sizes add up to the points. -/
theorem kmeans_sizes (points : Array Features) {k : Nat} (hk : 0 < k) (hp : 0 < points.size) :
    (kmeans points k).1.size = min k points.size ∧
      (kmeans points k).2.size = (kmeans points k).1.size ∧
      (kmeans points k).2.toList.sum = points.size := by
  have hseed : (seedCentres points (max (min k points.size) 1 - 1)
      #[points.getD 0 Features.zero]).size = min k points.size := by
    rw [seedCentres_size]
    simp only [List.size_toArray, List.length_cons, List.length_nil]
    omega
  -- fifty rounds at most, so at least one: every point starts unassigned and gets a centre
  obtain ⟨h1, h2, h3⟩ := lloyd_spec points kmeansRounds _ (points.map fun _ => none)
    (by rw [hseed]; omega) (.inl (by decide))
  unfold kmeans
  dsimp only
  generalize lloyd points kmeansRounds _ _ = r at h1 h2 h3 ⊢
  obtain ⟨centres, assigned⟩ := r
  dsimp only at h1 h2 h3 ⊢
  rw [← h1] at h2
  rw [← Array.foldl_toList]
  refine ⟨h1.trans hseed, foldl_tally (fun _ _ => rfl) (fun a ha => h2 a (Array.mem_toList_iff.1 ha))
    (by simp) (by simp [h3])⟩

/-! ## The largest group -/

/-- `i` is the first index of a largest entry of `sizes`. -/
structure FirstLargest (sizes : Array Nat) (i : Nat) : Prop where
  lt_size : i < sizes.size
  le : ∀ j (hj : j < sizes.size), sizes[j] ≤ sizes[i]
  lt : ∀ j (hj : j < i), sizes[j] < sizes[i]

-- What the scan for the largest group knows of the sizes `pre` it has read: `best` is the first
-- index of a largest one, whose size is `top`.
def Leading (pre : List Nat) (best top : Nat) : Prop :=
  pre ≠ [] → pre[best]? = some top ∧ (∀ j s : Nat, pre[j]? = some s → s ≤ top) ∧
    ∀ j s : Nat, j < best → pre[j]? = some s → s < top

theorem leading_nil (best top : Nat) : Leading [] best top := by
  unfold Leading
  intro h
  exact (h rfl).elim

theorem getElem?_push_eq_some {pre : List Nat} {x j s : Nat} (h : (pre ++ [x])[j]? = some s) :
    j < pre.length ∧ pre[j]? = some s ∨ j = pre.length ∧ s = x := by
  rcases Nat.lt_or_ge j pre.length with hj | hj
  · exact .inl ⟨hj, by rwa [List.getElem?_append_left hj] at h⟩
  · rw [List.getElem?_append_right hj, List.getElem?_singleton] at h
    split at h
    · exact .inr ⟨by omega, (Option.some.inj h).symm⟩
    · cases h

/-- A size larger than all read so far, or the first, takes the lead. -/
theorem Leading.push_new {pre : List Nat} {best top x : Nat} (h : Leading pre best top)
    (hx : pre = [] ∨ top < x) : Leading (pre ++ [x]) pre.length x := by
  unfold Leading at h ⊢
  intro _
  refine ⟨List.getElem?_concat_length, fun j s hs => ?_, fun j s hj hs => ?_⟩
  · rcases getElem?_push_eq_some hs with ⟨hj, hs⟩ | ⟨-, rfl⟩
    · rcases hx with rfl | hx
      · simp at hj
      · exact Nat.le_of_lt (Nat.lt_of_le_of_lt ((h (List.ne_nil_of_length_pos (by omega))).2.1 j s hs) hx)
    · exact Nat.le_refl _
  · rcases getElem?_push_eq_some hs with ⟨-, hs⟩ | ⟨rfl, -⟩
    · rcases hx with rfl | hx
      · simp at hj
      · exact Nat.lt_of_le_of_lt ((h (List.ne_nil_of_length_pos (by omega))).2.1 j s hs) hx
    · omega

/-- A size no larger than the lead leaves the lead where it is. -/
theorem Leading.push_old {pre : List Nat} {best top x : Nat} (h : Leading pre best top)
    (hne : pre ≠ []) (hx : x ≤ top) : Leading (pre ++ [x]) best top := by
  unfold Leading at h ⊢
  intro _
  obtain ⟨hbest, hle, hlt⟩ := h hne
  have hb : best < pre.length := (List.getElem?_eq_some_iff.1 hbest).1
  refine ⟨by rw [List.getElem?_append_left hb]; exact hbest, fun j s hs => ?_, fun j s hj hs => ?_⟩
  · rcases getElem?_push_eq_some hs with ⟨-, hs⟩ | ⟨-, rfl⟩
    · exact hle j s hs
    · exact hx
  · rcases getElem?_push_eq_some hs with ⟨-, hs⟩ | ⟨rfl, -⟩
    · exact hlt j s hj hs
    · omega

-- The scan goes on from the sizes it has read: the lead it keeps is that of all it has read.
theorem leading_foldl {f : Nat × Nat × Nat → Nat → Nat × Nat × Nat}
    (hf : ∀ b top i x, f (b, top, i) x =
      if (i == 0 || x > top) = true then (i, x, i + 1) else (b, top, i + 1))
    {pre rest : List Nat} {best top : Nat} (h : Leading pre best top) :
    Leading (pre ++ rest) (rest.foldl f (best, top, pre.length)).1
      (rest.foldl f (best, top, pre.length)).2.1 := by
  induction rest generalizing pre best top with
  | nil => simpa using h
  | cons x rest ih =>
    rw [List.foldl_cons, hf]
    split
    · next hx =>
      have hnew : pre = [] ∨ top < x := by
        simpa only [Bool.or_eq_true, beq_iff_eq, List.length_eq_zero_iff, gt_iff_lt,
          decide_eq_true_eq] using hx
      simpa using ih (h.push_new hnew)
    · next hx =>
      simp only [Bool.or_eq_true, beq_iff_eq, List.length_eq_zero_iff, gt_iff_lt, decide_eq_true_eq,
        not_or, Nat.not_lt] at hx
      simpa using ih (h.push_old hx.1 hx.2)

/-- The group `largestGroup` picks is the first of the largest. -/
theorem largestGroup_firstLargest {sizes : Array Nat} (hne : 0 < sizes.size) :
    FirstLargest sizes (largestGroup sizes) := by
  obtain ⟨top, hlead⟩ : ∃ top, Leading sizes.toList (largestGroup sizes) top := by
    unfold largestGroup
    dsimp only
    rw [← Array.foldl_toList]
    exact ⟨_, @leading_foldl _ (fun _ _ _ _ => rfl) [] sizes.toList 0 0 (leading_nil 0 0)⟩
  obtain ⟨htop, hle, hlt⟩ := hlead (by simpa [← Array.length_toList] using Nat.pos_iff_ne_zero.1 hne)
  simp only [Array.getElem?_toList] at htop hle hlt
  obtain ⟨hbest, rfl⟩ := Array.getElem?_eq_some_iff.1 htop
  exact ⟨hbest, fun j hj => hle j _ (Array.getElem?_eq_getElem hj),
    fun j hj => hlt j _ hj (Array.getElem?_eq_getElem (by omega))⟩

example : largestGroup #[2, 5, 1, 5] = 1 := by decide

/-! ## Deviations -/

theorem Features.mem_toList_map {f : Float → Float} {a : Features} {x : Float}
    (h : x ∈ (a.map f).toList) : ∃ y, x = f y := by
  simp only [Features.map, Features.toList, List.mem_cons, List.not_mem_nil, or_false] at h
  rcases h with rfl | rfl | rfl | rfl <;> exact ⟨_, rfl⟩

/-- Every deviation `standardize` answers is a finite number other than zero: a zero or non-finite
one is taken as one. -/
theorem standardize_stds {points : List Features} {x : Float}
    (h : x ∈ (standardize points).2.toList) : x.isFinite = true ∧ (x == 0) = false := by
  unfold standardize at h
  obtain ⟨s, rfl⟩ := Features.mem_toList_map h
  dsimp only
  split
  · exact ⟨by decide, by decide⟩
  · next hd =>
    simp only [Bool.or_eq_true, Bool.not_eq_eq_eq_not, Bool.not_true, not_or, Bool.not_eq_true] at hd
    exact ⟨by simpa using hd.2, hd.1⟩

/-! ## Training -/

namespace AccessTracker

/-- The points of the tracked history: one per recorded access, users in id order and each user's
accesses in the order kept. -/
def samples (t : AccessTracker) : List Features :=
  t.snapshot.flatMap fun p => p.accesses.map fun a => Features.ofAccess a p

/-- The points in standard units. -/
def scaledSamples (t : AccessTracker) : List Features :=
  t.samples.map (·.scale (standardize t.samples).1 (standardize t.samples).2)

theorem length_samples (t : AccessTracker) :
    t.samples.length = (t.patterns.map (·.accesses.length)).sum := by
  simp [samples, snapshot, List.length_flatMap]

theorem samples_eq_nil_of_size (t : AccessTracker) (h : t.snapshot.length = 0) : t.samples = [] := by
  simp [samples, List.length_eq_zero_iff.1 h]

theorem length_scaledSamples (t : AccessTracker) : t.scaledSamples.length = t.samples.length :=
  List.length_map _

end AccessTracker

namespace Predictor

/-- The model fitted to the tracked history at `now`, whether or not training accepts it. -/
def fit (pr : Predictor) (t : AccessTracker) (now : Instant) : PredictorModel :=
  let sizes := (kmeans t.scaledSamples.toArray pr.clusters).2
  { means := (standardize t.samples).1, stds := (standardize t.samples).2,
    centroids := (kmeans t.scaledSamples.toArray pr.clusters).1, clusterSizes := sizes,
    activeCluster := largestGroup sizes, samples := t.samples.length, users := t.snapshot.length,
    trainedAt := now }

/-- Training refuses too few users, a history with no access and a non-finite point in standard
units, in that order; otherwise it fits the model and keeps it. -/
theorem train_eq (pr : Predictor) (t : AccessTracker) (now : Instant) :
    pr.train t now =
      if t.snapshot.length < pr.minTrainingUsers then
        .error (.tooFewUsers t.snapshot.length pr.minTrainingUsers)
      else if t.samples.isEmpty then .error .noSamples
      else if !t.scaledSamples.all Features.isFinite then .error .nonFinite
      else .ok (pr.fit t now, { pr with model := some (pr.fit t now) }) := by
  unfold Predictor.train
  simp only [bind, Except.bind, pure, Except.pure, throw, throwThe, MonadExceptOf.throw]
  rfl

end Predictor

/-- Training with at least one cluster either refuses or fits and keeps a model. It refuses
exactly when fewer users are tracked than `max 1 minTrainingUsers`, when no access is tracked, or
when a point in standard units has a feature that is not finite; a refusal answers no predictor,
so the caller keeps the model it had, or none. Otherwise the predictor answered keeps the model
answered, and nothing else of the predictor changes. The model counts every tracked access and
user; it has `min clusters samples` centres, at least one, and one size per centre; the sizes add
up to the accesses; every deviation is finite and not zero; and the active group is the first of
the largest. -/
theorem training_refuses_or_fits (pr : Predictor) (t : AccessTracker) (now : Instant)
    (hk : 1 ≤ pr.clusters) :
    ((∃ e, pr.train t now = .error e) ↔
      t.size < max 1 pr.minTrainingUsers ∨ t.samples = [] ∨
        ∃ p ∈ t.scaledSamples, p.isFinite = false) ∧
    ∀ m pr', pr.train t now = .ok (m, pr') →
      pr' = { pr with model := some m } ∧
      m.samples = (t.patterns.map (·.accesses.length)).sum ∧ m.users = t.size ∧
      1 ≤ m.centroids.size ∧ m.centroids.size = min pr.clusters m.samples ∧
      m.clusterSizes.size = m.centroids.size ∧ m.clusterSizes.toList.sum = m.samples ∧
      (∀ x ∈ m.stds.toList, x.isFinite = true ∧ (x == 0) = false) ∧
      FirstLargest m.clusterSizes m.activeCluster := by
  have hsize : t.size = t.snapshot.length := rfl
  refine ⟨⟨fun ⟨e, he⟩ => ?_, fun h => ?_⟩, fun m pr' h => ?_⟩
  · -- each refusal comes from its own check
    rw [Predictor.train_eq] at he
    split_ifs at he with h1 h2 h3
    · exact .inl (by omega)
    · exact .inr (.inl (List.isEmpty_iff.1 h2))
    · simp only [Bool.not_eq_true', List.all_eq_false, Bool.not_eq_true] at h3
      exact .inr (.inr h3)
  · rw [Predictor.train_eq]
    split_ifs with h1 h2 h3
    · exact ⟨_, rfl⟩
    · exact ⟨_, rfl⟩
    · exact ⟨_, rfl⟩
    · -- past the checks none of the three can hold; with no user there is no access either
      exfalso
      rcases h with h | h | ⟨p, hp, hfin⟩
      · exact h2 (List.isEmpty_iff.2 (t.samples_eq_nil_of_size (by omega)))
      · exact h2 (List.isEmpty_iff.2 h)
      · simp only [Bool.not_eq_true', List.all_eq_false, not_exists, not_and] at h3
        exact absurd hfin (by simpa using h3 p hp)
  · rw [Predictor.train_eq] at h
    split_ifs at h with h1 h2 h3
    cases h
    have hn : 0 < t.scaledSamples.toArray.size := by
      rw [List.size_toArray, AccessTracker.length_scaledSamples]
      exact List.length_pos_iff.2 (fun hnil => h2 (List.isEmpty_iff.2 hnil))
    obtain ⟨hcentres, hsizes, hsum⟩ := kmeans_sizes t.scaledSamples.toArray hk hn
    simp only [List.size_toArray, AccessTracker.length_scaledSamples] at hcentres hsum hn
    refine ⟨rfl, t.length_samples, hsize.symm, ?_, hcentres, hsizes, hsum,
      fun x hx => standardize_stds hx, largestGroup_firstLargest ?_⟩
    · simp only [Predictor.fit]
      omega
    · simp only [Predictor.fit]
      omega

/-- A tracker with no user yet, as the default settings create it, trained at the epoch. -/
def emptyTracker : AccessTracker := { historyLen := 100, retentionSecs := 30 * 86400 }

/-- A tracker that has seen one user at the epoch and an hour later. -/
def twoAccessTracker : AccessTracker :=
  { emptyTracker with patterns := [{ userId := "u0", accesses := [⟨0⟩, ⟨3600000000000⟩] }] }

-- One user seen twice passes the checks on users and accesses.
theorem training_with_three_clusters :
    1 ≤ (Predictor.create 3 1 100).clusters ∧
    ¬ twoAccessTracker.size < max 1 (Predictor.create 3 1 100).minTrainingUsers ∧
    twoAccessTracker.samples.length = 2 ∧
    ((∃ e, (Predictor.create 3 1 100).train twoAccessTracker ⟨3600000000000⟩ = .error e) ↔
      twoAccessTracker.size < max 1 (Predictor.create 3 1 100).minTrainingUsers ∨
        twoAccessTracker.samples = [] ∨ ∃ p ∈ twoAccessTracker.scaledSamples, p.isFinite = false) ∧
    ∀ m pr', (Predictor.create 3 1 100).train twoAccessTracker ⟨3600000000000⟩ = .ok (m, pr') →
      pr' = { Predictor.create 3 1 100 with model := some m } ∧
      m.samples = (twoAccessTracker.patterns.map (·.accesses.length)).sum ∧
      m.users = twoAccessTracker.size ∧
      1 ≤ m.centroids.size ∧ m.centroids.size = min (Predictor.create 3 1 100).clusters m.samples ∧
      m.clusterSizes.size = m.centroids.size ∧ m.clusterSizes.toList.sum = m.samples ∧
      (∀ x ∈ m.stds.toList, x.isFinite = true ∧ (x == 0) = false) ∧
      FirstLargest m.clusterSizes m.activeCluster :=
  ⟨by decide, by decide, by rw [twoAccessTracker.length_samples]; decide,
    training_refuses_or_fits _ _ _ (by decide)⟩

end TierCache
