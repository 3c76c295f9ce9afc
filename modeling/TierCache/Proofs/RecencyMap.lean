import TierCache.Proofs.MemoryAccounting
import Mathlib.Data.Finset.Card

/-!
# The memory tier's reference model

A finite map from keys to slots, evicting by the age of the last touch (`card_evicted`).
-/

namespace TierCache

structure RecencyMap where
  keys : Finset String
  slot : String → Slot
  seq : Nat
  now : Nat
  capacity : Nat

namespace RecencyMap

def empty (capacity : Nat) : RecencyMap :=
  ⟨∅, fun _ => ⟨ByteArray.empty, 0, 0⟩, 0, 0, capacity⟩

def lookup (M : RecencyMap) (k : String) : Option Slot :=
  if k ∈ M.keys then some (M.slot k) else none

-- The map without the keys that fail `p`.
def keepIf (M : RecencyMap) (p : String → Prop) [DecidablePred p] : RecencyMap :=
  { M with keys := M.keys.filter p }

def write (M : RecencyMap) (k : String) (s : Slot) : RecencyMap :=
  { M with keys := insert k M.keys, slot := Function.update M.slot k s }

-- How many resident entries were last touched before `k` was.
def age (M : RecencyMap) (k : String) : Nat :=
  (M.keys.filter fun k' => (M.slot k').touched < (M.slot k).touched).card

-- Evicting `n` entries keeps those with at least `n` entries older than them.
def evict (M : RecencyMap) (n : Nat) : RecencyMap := M.keepIf fun k => n ≤ M.age k

-- A new key at a full map first evicts the oldest tenth, rounded up; a time to live under one
-- millisecond counts as one.
def set (M : RecencyMap) (key : String) (value : ByteArray) (ttlMs : Nat) : Nat × RecencyMap :=
  let n := if key ∉ M.keys ∧ M.capacity ≤ M.keys.card then (M.keys.card + 9) / 10 else 0
  (n, { (M.evict n).write key ⟨value, M.now + max ttlMs 1, M.seq + 1⟩ with seq := M.seq + 1 })

-- A read at or past the expiry removes the entry and misses; a read before it touches the entry.
def get (M : RecencyMap) (key : String) : Option ByteArray × RecencyMap :=
  match M.lookup key with
  | none => (none, M)
  | some s =>
    if s.expires ≤ M.now then (none, M.keepIf (· ≠ key))
    else (some s.value, { M.write key { s with touched := M.seq + 1 } with seq := M.seq + 1 })

def peek (M : RecencyMap) (key : String) : Option Slot :=
  (M.lookup key).filter fun s => decide (M.now < s.expires)

-- Every matching key goes; only the live ones are counted.
def removeMatching (M : RecencyMap) (pattern : String) : Nat × RecencyMap :=
  ((M.keys.filter fun k => globMatch pattern k ∧ M.now < (M.slot k).expires).card,
    M.keepIf fun k => ¬globMatch pattern k)

def sweep (M : RecencyMap) : Nat × RecencyMap :=
  ((M.keys.filter fun k => (M.slot k).expires ≤ M.now).card,
    M.keepIf fun k => M.now < (M.slot k).expires)

def step (M : RecencyMap) : MemoryOp → MemoryReply × RecencyMap
  | .set key value ttlMs _ =>
    let (n, M) := M.set key value ttlMs
    (.count n, M)
  | .get key =>
    let (v, M) := M.get key
    (.value v, M)
  | .peek key => (.slot (M.peek key), M)
  | .contains key => (.flag (M.peek key).isSome, M)
  | .delete key => (.flag (decide (key ∈ M.keys)), M.keepIf (· ≠ key))
  | .removeMatching pattern =>
    let (n, M) := M.removeMatching pattern
    (.count n, M)
  | .sweep =>
    let (n, M) := M.sweep
    (.count n, M)
  | .clear => (.done, { M with keys := ∅ })
  | .advance ms => (.done, { M with now := M.now + ms })

def run (M : RecencyMap) : List MemoryOp → List MemoryReply × RecencyMap
  | [] => ([], M)
  | op :: ops =>
    let (reply, M) := M.step op
    let (replies, M) := run M ops
    (reply :: replies, M)

@[simp] theorem run_nil (M : RecencyMap) : M.run [] = ([], M) := rfl

@[simp] theorem run_cons (M : RecencyMap) (op : MemoryOp) (ops : List MemoryOp) :
    M.run (op :: ops) = ((M.step op).1 :: ((M.step op).2.run ops).1, ((M.step op).2.run ops).2) :=
  rfl

variable {M : RecencyMap} {k key : String}

theorem lookup_eq_some_iff {s : Slot} : M.lookup k = some s ↔ k ∈ M.keys ∧ M.slot k = s := by
  unfold lookup
  split <;> simp_all

theorem lookup_eq_none_iff : M.lookup k = none ↔ k ∉ M.keys := by
  unfold lookup
  split <;> simp_all

@[simp] theorem lookup_keepIf (p : String → Prop) [DecidablePred p] :
    (M.keepIf p).lookup k = if p k then M.lookup k else none := by
  unfold lookup keepIf
  by_cases hp : p k <;> simp [hp]

@[simp] theorem lookup_write (s : Slot) : (M.write key s).lookup k = if k = key then some s else M.lookup k := by
  unfold lookup write
  by_cases hk : k = key <;> simp [hk]

@[simp] theorem keepIf_seq (p : String → Prop) [DecidablePred p] : (M.keepIf p).seq = M.seq := rfl
@[simp] theorem keepIf_now (p : String → Prop) [DecidablePred p] : (M.keepIf p).now = M.now := rfl
@[simp] theorem keepIf_capacity (p : String → Prop) [DecidablePred p] :
    (M.keepIf p).capacity = M.capacity := rfl
@[simp] theorem keepIf_slot (p : String → Prop) [DecidablePred p] : (M.keepIf p).slot = M.slot := rfl

@[simp] theorem write_seq (s : Slot) : (M.write key s).seq = M.seq := rfl
@[simp] theorem write_now (s : Slot) : (M.write key s).now = M.now := rfl
@[simp] theorem write_capacity (s : Slot) : (M.write key s).capacity = M.capacity := rfl

@[simp] theorem get_now : (M.get key).2.now = M.now := by
  unfold get
  split
  · rfl
  · split <;> rfl

theorem evict_zero : M.evict 0 = M := by
  simp [evict, keepIf]

/-! ## Eviction removes exactly the entries touched longest ago -/

-- Touches set apart the resident keys.
def Distinct (M : RecencyMap) : Prop :=
  Set.InjOn (fun k => (M.slot k).touched) M.keys

-- A later touch means a greater age: the older entry counts among the entries before the other.
theorem age_lt_age {a b : String} (ha : a ∈ M.keys)
    (hab : (M.slot a).touched < (M.slot b).touched) : M.age a < M.age b := by
  apply Finset.card_lt_card
  refine Finset.ssubset_iff_of_subset (fun k hk => ?_) |>.2 ⟨a, ?_, ?_⟩
  · simp only [Finset.mem_filter] at hk ⊢
    exact ⟨hk.1, Nat.lt_trans hk.2 hab⟩
  · simp [ha, hab]
  · simp

theorem age_injOn (h : M.Distinct) : Set.InjOn M.age M.keys := by
  intro a ha b hb hage
  by_contra hne
  have hlt : (M.slot a).touched < (M.slot b).touched ∨ (M.slot b).touched < (M.slot a).touched := by
    have : (M.slot a).touched ≠ (M.slot b).touched := fun he => hne (h ha hb he)
    omega
  rcases hlt with hlt | hlt
  · exact Nat.lt_irrefl _ (hage ▸ age_lt_age ha hlt)
  · exact Nat.lt_irrefl _ (hage ▸ age_lt_age hb hlt)

-- An entry is never older than itself, so every age is below the number of entries.
theorem age_lt_card (ha : k ∈ M.keys) : M.age k < M.keys.card := by
  apply Finset.card_lt_card
  refine Finset.ssubset_iff_of_subset (Finset.filter_subset _ _) |>.2 ⟨k, ha, ?_⟩
  simp

-- The ages of distinct touches are exactly `0, 1, …, card - 1`.
theorem image_age (h : M.Distinct) : M.keys.image M.age = Finset.range M.keys.card := by
  apply Finset.eq_of_subset_of_card_le
  · intro n hn
    obtain ⟨k, hk, rfl⟩ := Finset.mem_image.1 hn
    exact Finset.mem_range.2 (age_lt_card hk)
  · rw [Finset.card_range, Finset.card_image_of_injOn (age_injOn h)]

-- With distinct touches, evicting `n` entries removes `n` of them, or all when there are fewer.
theorem card_evicted (h : M.Distinct) (n : Nat) :
    (M.keys.filter fun k => M.age k < n).card = min n M.keys.card := by
  have himage : (M.keys.filter fun k => M.age k < n).image M.age = Finset.range (min n M.keys.card) := by
    ext i
    simp only [Finset.mem_image, Finset.mem_filter, Finset.mem_range, Nat.lt_min]
    constructor
    · rintro ⟨k, ⟨hk, hlt⟩, rfl⟩
      exact ⟨hlt, age_lt_card hk⟩
    · rintro ⟨hlt, hcard⟩
      -- every age below the number of entries is some entry's age
      obtain ⟨k, hk, rfl⟩ := Finset.mem_image.1 ((image_age h).symm ▸ Finset.mem_range.2 hcard)
      exact ⟨k, ⟨hk, hlt⟩, rfl⟩
  rw [← Finset.card_image_of_injOn ((age_injOn h).mono (Finset.filter_subset _ _)), himage,
    Finset.card_range]

end RecencyMap

end TierCache
