import TierCache.Warming.Patterns
/-!
# The warming predictor

Every recorded access becomes a point of four features: the hour of day, the day of the week
(Monday first), how many distinct keys the user touched, and how many preferences the user saved.
Each feature is standardized by the mean and deviation over all points, and the points are
grouped by k-means: the first point seeds the first centre, each further centre is the point
farthest from the centres so far, and at most fifty rounds of assignment and re-centring follow.
The group with the most points is the active one; a user whose features at a given time lie
nearest to the active centre is predicted to be active then.

All arithmetic is in doubles, in a fixed order, so the model is a function of the history.
-/

namespace TierCache

/-- A point in feature space. -/
structure Features where
  hour : Float
  weekday : Float
  keys : Float
  prefs : Float
  deriving Repr, Inhabited

namespace Features

/-- The origin. -/
def zero : Features := ⟨0, 0, 0, 0⟩

/-- The features one by one. -/
def toList (p : Features) : List Float := [p.hour, p.weekday, p.keys, p.prefs]

/-- Combines two points feature by feature. -/
def zipWith (f : Float → Float → Float) (a b : Features) : Features :=
  ⟨f a.hour b.hour, f a.weekday b.weekday, f a.keys b.keys, f a.prefs b.prefs⟩

/-- Changes every feature of a point. -/
def map (f : Float → Float) (a : Features) : Features := ⟨f a.hour, f a.weekday, f a.keys, f a.prefs⟩

/-- The square of the distance, summed over the features in order. -/
def distanceSq (a b : Features) : Float :=
  let sq (x y : Float) := (x - y) * (x - y)
  sq a.hour b.hour + sq a.weekday b.weekday + sq a.keys b.keys + sq a.prefs b.prefs

/-- Whether every feature is a finite number. -/
def isFinite (p : Features) : Bool := p.toList.all Float.isFinite

/-- The features of an access at `time` by a user with pattern `p`. -/
def ofAccess (time : Instant) (p : AccessPattern) : Features :=
  ⟨Float.ofNat time.hour, Float.ofNat time.weekdayFromMonday, Float.ofNat p.keys.length,
   Float.ofNat p.preferences.length⟩

end Features

/-- The index of the centre nearest to `p`; the first of equally near ones, and the first centre
when no distance is below infinity. -/
def nearestCentre (centres : Array Features) (p : Features) : Nat :=
  let step := fun ((best, bestD, i) : Nat × Float × Nat) (c : Features) =>
    let d := p.distanceSq c
    if d < bestD then (i, d, i + 1) else (best, bestD, i + 1)
  (centres.foldl step (0, 1.0 / 0.0, 0)).1

/-- Mean and deviation of each feature over the points; a deviation that is zero or not finite
is taken as one, so that scaling by it is harmless. -/
def standardize (points : List Features) : Features × Features :=
  let n := Float.ofNat points.length
  let means := (points.foldl (Features.zipWith (· + ·)) Features.zero).map (· / n)
  let sums := points.foldl (fun acc p => acc.zipWith (· + ·) (p.zipWith (fun x m => (x - m) * (x - m)) means))
    Features.zero
  let stds := sums.map fun s =>
    let d := (s / n).sqrt
    if d == 0 || !d.isFinite then 1 else d
  (means, stds)

/-- A point moved to standard units. -/
def Features.scale (p means stds : Features) : Features :=
  (p.zipWith (· - ·) means).zipWith (· / ·) stds

/-- The point farthest from its nearest centre; the first of equally far ones. -/
def farthestPoint (points : Array Features) (centres : Array Features) : Nat :=
  let step := fun ((far, farD, i) : Nat × Float × Nat) (p : Features) =>
    let d := p.distanceSq (centres.getD (nearestCentre centres p) Features.zero)
    if d > farD then (i, d, i + 1) else (far, farD, i + 1)
  (points.foldl step (0, -1.0, 0)).1

/-- Seeds `extra` more centres, each the point farthest from the centres so far. -/
def seedCentres (points : Array Features) : Nat → Array Features → Array Features
  | 0, centres => centres
  | extra + 1, centres => seedCentres points extra (centres.push (points.getD (farthestPoint points centres) Features.zero))

/-- The mean of the points assigned to centre `c`, or the centre itself when none is. -/
def recentre (points : Array Features) (assigned : Array Nat) (c : Nat) (old : Features) : Features :=
  let step := fun ((sum, count) : Features × Nat) ((p, a) : Features × Nat) =>
    if a == c then (sum.zipWith (· + ·) p, count + 1) else (sum, count)
  let (sum, count) := (points.zip assigned).foldl step (Features.zero, 0)
  if count > 0 then sum.map (· / Float.ofNat count) else old

/-- Rounds of assignment and re-centring, at most `rounds` of them, until no point changes
its centre; answers the centres and the last assignment. -/
def lloyd (points : Array Features) : Nat → Array Features → Array (Option Nat) →
    Array Features × Array (Option Nat)
  | 0, centres, assigned => (centres, assigned)
  | rounds + 1, centres, assigned =>
    let next := points.map fun p => some (nearestCentre centres p)
    if next == assigned then (centres, assigned)
    else
      let labels := next.map (·.getD 0)
      let centres := centres.mapIdx fun c old => recentre points labels c old
      lloyd points rounds centres next

/-- The most rounds k-means runs. -/
def kmeansRounds : Nat := 50

/-- Groups points around at most `k` centres (at least one, at most one per point); answers the
centres and how many points each holds. -/
def kmeans (points : Array Features) (k : Nat) : Array Features × Array Nat :=
  let k := max (min k points.size) 1
  let centres := seedCentres points (k - 1) #[points.getD 0 Features.zero]
  let (centres, assigned) := lloyd points kmeansRounds centres (points.map fun _ => none)
  let sizes := assigned.foldl (fun sizes a => match a with
    | some c => sizes.modify c (· + 1)
    | none => sizes) (Array.replicate centres.size 0)
  (centres, sizes)

/-- The index of the largest group; the lowest index among equally large ones. -/
def largestGroup (sizes : Array Nat) : Nat :=
  let step := fun ((best, bestSize, i) : Nat × Nat × Nat) (s : Nat) =>
    if i == 0 || s > bestSize then (i, s, i + 1) else (best, bestSize, i + 1)
  (sizes.foldl step (0, 0, 0)).1

/-- A trained model. -/
structure PredictorModel where
  means : Features
  stds : Features
  centroids : Array Features
  clusterSizes : Array Nat
  activeCluster : Nat
  samples : Nat
  users : Nat
  trainedAt : Instant
  deriving Repr, Inhabited

namespace PredictorModel

/-- Whether a user with pattern `p` is predicted to be active at `now`. -/
def predictsActive (m : PredictorModel) (now : Instant) (p : AccessPattern) : Bool :=
  nearestCentre m.centroids ((Features.ofAccess now p).scale m.means m.stds) == m.activeCluster

end PredictorModel

/-- The predictor: its settings and the model of its last successful training. -/
structure Predictor where
  /-- At least one. -/
  clusters : Nat
  /-- At least one. -/
  minTrainingUsers : Nat
  maxPredicted : Nat
  model : Option PredictorModel := none
  deriving Repr, Inhabited

namespace Predictor

/-- A predictor with no model; clusters and the least number of users are at least one. -/
def create (clusters minTrainingUsers maxPredicted : Nat) : Predictor :=
  { clusters := max clusters 1, minTrainingUsers := max minTrainingUsers 1, maxPredicted }

/-- Why training failed. -/
inductive TrainingFault where
  | tooFewUsers (tracked required : Nat)
  | noSamples
  | nonFinite
  deriving Repr, DecidableEq

/-- The text of a training fault. -/
def TrainingFault.message : TrainingFault → String
  | .tooFewUsers n m => s!"{n} users tracked, {m} required"
  | .noSamples => "no access samples"
  | .nonFinite => "non-finite feature value"

/-- Fits a model to the tracked history at `now`, users in id order and each user's accesses
oldest first. A failed training keeps the model there was. -/
def train (pr : Predictor) (t : AccessTracker) (now : Instant) :
    Except TrainingFault (PredictorModel × Predictor) := do
  let patterns := t.snapshot
  if patterns.length < pr.minTrainingUsers then throw (.tooFewUsers patterns.length pr.minTrainingUsers)
  let samples := patterns.flatMap fun p => p.accesses.map fun a => Features.ofAccess a p
  if samples.isEmpty then throw .noSamples
  let (means, stds) := standardize samples
  let scaled := samples.map (·.scale means stds)
  if !scaled.all Features.isFinite then throw .nonFinite
  let (centroids, sizes) := kmeans scaled.toArray pr.clusters
  let model : PredictorModel :=
    { means, stds, centroids, clusterSizes := sizes, activeCluster := largestGroup sizes,
      samples := samples.length, users := patterns.length, trainedAt := now }
  return (model, { pr with model := some model })

/-- The users, in id order, predicted to be active at `now`, at most `maxPredicted`; none before
the first successful training. -/
def predict (pr : Predictor) (t : AccessTracker) (now : Instant) : List String :=
  match pr.model with
  | none => []
  | some m => ((t.snapshot.filter (m.predictsActive now)).map (·.userId)).take pr.maxPredicted

end Predictor

end TierCache
