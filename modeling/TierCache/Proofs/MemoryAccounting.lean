import TierCache.Console.Tiers
import Mathlib

/-!
# What every run of the memory tier keeps

Capacity, byte count, occupancy gauges and distinct stamps, with one lemma for every removal
(`MemoryTier.restrict`) and one per operation.
-/

namespace TierCache

namespace MemoryTier

-- The bytes a list of entries holds.
def usage (items : List (String × Item)) : Nat := (items.map (·.2.size)).sum

@[simp] theorem usage_nil : usage [] = 0 := rfl

@[simp] theorem usage_cons (e : String × Item) (items : List (String × Item)) :
    usage (e :: items) = e.2.size + usage items := by
  simp [usage]

@[simp] theorem usage_append (l₁ l₂ : List (String × Item)) :
    usage (l₁ ++ l₂) = usage l₁ + usage l₂ := by
  simp [usage]

-- The tier cut down to the entries `p` keeps, with its bytes recounted.
def restrict (t : MemoryTier) (p : String × Item → Bool) : MemoryTier :=
  { t with items := t.items.filter p, bytes := usage (t.items.filter p) }

@[simp] theorem restrict_items (t : MemoryTier) (p : String × Item → Bool) :
    (t.restrict p).items = t.items.filter p := rfl

@[simp] theorem restrict_bytes (t : MemoryTier) (p : String × Item → Bool) :
    (t.restrict p).bytes = usage (t.items.filter p) := rfl

@[simp] theorem restrict_clock (t : MemoryTier) (p : String × Item → Bool) :
    (t.restrict p).clock = t.clock := rfl

@[simp] theorem restrict_capacity (t : MemoryTier) (p : String × Item → Bool) :
    (t.restrict p).capacity = t.capacity := rfl

theorem restrict_restrict (t : MemoryTier) (p q : String × Item → Bool) :
    (t.restrict p).restrict q = t.restrict fun e => p e && q e := by
  simp [restrict, List.filter_filter, Bool.and_comm]

-- What a well-formed tier keeps: each key once, no more entries than its capacity, its byte
-- count the sum of its items' sizes, and distinct logical stamps no later than its clock.
structure Wf (t : MemoryTier) : Prop where
  keys_nodup : t.keys.Nodup
  capacity_pos : 0 < t.capacity
  size_le : t.size ≤ t.capacity
  bytes_eq : t.bytes = usage t.items
  stamps_nodup : (t.items.map (·.2.recency)).Nodup
  stamp_le : ∀ e ∈ t.items, e.2.recency ≤ t.clock

theorem create_wf (capacity : Nat) : (create capacity).Wf where
  keys_nodup := List.nodup_nil
  capacity_pos := Nat.lt_of_lt_of_le Nat.one_pos (Nat.le_max_right _ _)
  size_le := Nat.zero_le _
  bytes_eq := rfl
  stamps_nodup := List.nodup_nil
  stamp_le := by simp [create]

theorem Wf.restrict {t : MemoryTier} (h : t.Wf) (p : String × Item → Bool) : (t.restrict p).Wf where
  keys_nodup := h.keys_nodup.sublist (List.filter_sublist.map _)
  capacity_pos := h.capacity_pos
  size_le := Nat.le_trans (List.length_filter_le _ _) h.size_le
  bytes_eq := rfl
  stamps_nodup := h.stamps_nodup.sublist (List.filter_sublist.map _)
  stamp_le := fun e he => h.stamp_le e (List.mem_of_mem_filter he)

-- Under distinct keys, removing the entry of `key` takes exactly its size off the usage.
theorem usage_filter_ne {items : List (String × Item)} (hk : (items.map (·.1)).Nodup)
    {key : String} {item : Item} (hl : items.lookup key = some item) :
    usage (items.filter (·.1 != key)) + item.size = usage items := by
  induction items with
  | nil => cases hl
  | cons e rest ih =>
    obtain ⟨k, i⟩ := e
    rw [List.map_cons, List.nodup_cons] at hk
    by_cases hkey : key = k
    · subst hkey
      have hrest : rest.filter (·.1 != key) = rest :=
        List.filter_eq_self.2 fun e he => bne_iff_ne.2 fun hek => hk.1 (List.mem_map.2 ⟨e, he, hek⟩)
      simp only [List.lookup_cons_self, Option.some.injEq] at hl
      subst hl
      simp [hrest, Nat.add_comm]
    · have hl' : rest.lookup key = some item := by
        simpa [List.lookup_cons, beq_false_of_ne hkey] using hl
      have hne : (k != key) = true := bne_iff_ne.2 (Ne.symm hkey)
      simp only [List.filter_cons, hne, if_true, usage_cons]
      have := ih hk.2 hl'
      omega

theorem find?_eq_none_iff {t : MemoryTier} {key : String} : t.find? key = none ↔ key ∉ t.keys := by
  simp only [find?, keys, List.lookup_eq_none_iff, List.mem_map, not_exists, not_and, bne_iff_ne]
  exact forall₂_congr fun e _ => ne_comm

-- On a well-formed tier, dropping a key keeps every other entry and recounts the bytes.
theorem drop_eq {t : MemoryTier} (h : t.Wf) (key : String) : t.drop key = t.restrict (·.1 != key) := by
  unfold drop
  split
  · rename_i item hf
    have := usage_filter_ne h.keys_nodup hf
    simp only [restrict, h.bytes_eq]
    congr 1
    omega
  · rename_i hf
    have hkeep : t.items.filter (·.1 != key) = t.items :=
      List.filter_eq_self.2 fun e he => by
        rw [bne_comm]
        exact (List.lookup_eq_none_iff.1 hf) e he
    simp only [restrict, hkeep, ← h.bytes_eq]

theorem restrict_true {t : MemoryTier} (h : t.Wf) : t.restrict (fun _ => true) = t := by
  simp only [restrict, List.filter_true, ← h.bytes_eq]

-- Dropping keys one after another keeps exactly the entries whose key is not among them.
theorem foldl_drop_eq {t : MemoryTier} (h : t.Wf) (ks : List String) :
    ks.foldl drop t = t.restrict fun e => decide (e.1 ∉ ks) := by
  induction ks generalizing t with
  | nil => simpa using (restrict_true h).symm
  | cons k ks ih =>
    rw [List.foldl_cons, drop_eq h, ih (h.restrict _), restrict_restrict]
    congr 1
    funext e
    by_cases hk : e.1 = k <;> simp [hk]

theorem Wf.size_pos_of_full {t : MemoryTier} (h : t.Wf) (hfull : t.capacity ≤ t.size) :
    0 < t.size :=
  Nat.lt_of_lt_of_le h.capacity_pos hfull

-- An eviction keeps the entries whose keys are not among the victims, ranked by `Item.rankLE`.
theorem evictOldest_eq {t : MemoryTier} (h : t.Wf) (m : Metrics) :
    evictOldest t m = ((t.size + 9) / 10,
      t.restrict (fun e => decide (e.1 ∉ ((t.items.mergeSort fun a b => Item.rankLE a.2 b.2).take
        ((t.size + 9) / 10)).map (·.1))),
      m.evicted ((t.size + 9) / 10)) := by
  unfold evictOldest
  dsimp only
  split
  · rename_i hzero
    have hz : (t.size + 9) / 10 = 0 := by simpa using hzero
    simp only [hz, List.take_zero, List.map_nil, List.not_mem_nil, not_false_eq_true, decide_true,
      restrict_true h]
    rfl
  · simp only [foldl_drop_eq h]

-- A full tier loses at least one entry to an eviction.
theorem evictOldest_size_lt {t : MemoryTier} (h : t.Wf) (m : Metrics) (hne : 0 < t.size) :
    (evictOldest t m).2.1.size < t.size := by
  rw [evictOldest_eq h]
  let sorted := t.items.mergeSort fun a b => Item.rankLE a.2 b.2
  obtain ⟨first, rest, hsorted⟩ : ∃ first rest, sorted = first :: rest := by
    cases hs : sorted with
    | nil =>
      have hlen := (List.mergeSort_perm t.items fun a b => Item.rankLE a.2 b.2).length_eq
      simp only [sorted] at hs
      rw [hs] at hlen
      simp only [size] at hne
      simp at hlen
      omega
    | cons first rest => exact ⟨first, rest, rfl⟩
  have hcount : (t.size + 9) / 10 = ((t.size + 9) / 10 - 1) + 1 := by omega
  apply List.length_filter_lt_length_iff_exists.2
  refine ⟨first, (List.mergeSort_perm _ _).mem_iff.1 (hsorted ▸ List.mem_cons_self), ?_⟩
  change ¬decide (first.1 ∉ (sorted.take ((t.size + 9) / 10)).map (·.1)) = true
  rw [hsorted, hcount, List.take_succ_cons]
  simp

-- A new key with a fresh stamp may join a tier that has room for it.
theorem Wf.append {t : MemoryTier} (h : t.Wf) {key : String} (hk : key ∉ t.keys)
    (hroom : t.size < t.capacity) {item : Item} (hstamp : t.clock < item.recency) :
    { t with clock := item.recency, items := t.items ++ [(key, item)], bytes := t.bytes + item.size }.Wf where
  keys_nodup := by
    show ((t.items ++ [(key, item)]).map (·.1)).Nodup
    rw [List.map_append, List.map_singleton]
    exact h.keys_nodup.append (List.nodup_singleton key) (List.disjoint_singleton.2 hk)
  capacity_pos := h.capacity_pos
  size_le := by simpa [size] using Nat.succ_le_of_lt hroom
  bytes_eq := by simp [h.bytes_eq]
  stamps_nodup := by
    rw [List.map_append, List.map_singleton]
    refine h.stamps_nodup.append (List.nodup_singleton _) (List.disjoint_singleton.2 fun hm => ?_)
    obtain ⟨e, he, hr⟩ := List.mem_map.1 hm
    have := h.stamp_le e he
    simp only at hr
    omega
  stamp_le := by
    simp only [List.mem_append, List.mem_singleton]
    rintro e (he | rfl)
    · exact Nat.le_of_lt (Nat.lt_of_le_of_lt (h.stamp_le e he) hstamp)
    · exact Nat.le_refl _

theorem mem_keys_drop {t : MemoryTier} (h : t.Wf) (key k : String) :
    k ∈ (t.drop key).keys ↔ k ∈ t.keys ∧ k ≠ key := by
  simp [drop_eq h, keys, restrict]

theorem size_drop_lt {t : MemoryTier} (h : t.Wf) {key : String} (hk : key ∈ t.keys) :
    (t.drop key).size < t.size := by
  rw [drop_eq h]
  obtain ⟨e, he, rfl⟩ := List.mem_map.1 hk
  exact List.length_filter_lt_length_iff_exists.2 ⟨e, he, by simp⟩

theorem size_drop_le {t : MemoryTier} (h : t.Wf) (key : String) : (t.drop key).size ≤ t.size := by
  rw [drop_eq h]
  exact List.length_filter_le _ _

-- Storing under `key` replaces its entry, if any, by one with the next stamp.
theorem Wf.store {t : MemoryTier} (h : t.Wf) (key : String) (item : Item)
    (hroom : (t.drop key).size < t.capacity) :
    ({ (t.drop key) with
        clock := t.clock + 1
        items := (t.drop key).items ++ [(key, { item with recency := t.clock + 1 })]
        bytes := (t.drop key).bytes + item.size } : MemoryTier).Wf := by
  have hd := drop_eq h key
  have hw : (t.drop key).Wf := hd ▸ h.restrict _
  have hk : key ∉ (t.drop key).keys := fun hm => ((mem_keys_drop h key key).1 hm).2 rfl
  exact @Wf.append (t.drop key) hw key hk (by simpa [hd] using hroom)
    { item with recency := t.clock + 1 } (by simp [hd])

theorem Wf.set {t : MemoryTier} (h : t.Wf) (m : Metrics) (key : String) (value : ByteArray)
    (ttlMs : Nat) (origin : Origin) (now : Nat) : (t.set m key value ttlMs origin now).2.1.Wf := by
  unfold MemoryTier.set
  dsimp only
  split
  · rename_i hcond
    simp only [Bool.and_eq_true, Option.isNone_iff_eq_none, find?_eq_none_iff,
      decide_eq_true_eq] at hcond
    have hlt := evictOldest_size_lt h m (h.size_pos_of_full hcond.2)
    rw [evictOldest_eq h] at hlt ⊢
    have hw := h.restrict (fun e => decide (e.1 ∉ ((t.items.mergeSort fun a b =>
      Item.rankLE a.2 b.2).take ((t.size + 9) / 10)).map (·.1)))
    refine hw.store key _ (Nat.lt_of_le_of_lt (size_drop_le hw key) ?_)
    have := h.size_le
    simp only [restrict_capacity] at hlt ⊢
    omega
  · rename_i hcond
    simp only [Bool.and_eq_true, Option.isNone_iff_eq_none, find?_eq_none_iff,
      decide_eq_true_eq, not_and_or, not_not, Nat.not_le] at hcond
    refine h.store key _ ?_
    have := h.size_le
    rcases hcond with hk | hroom
    · have := size_drop_lt h hk
      omega
    · have := size_drop_le h key
      omega

theorem mem_of_find? {t : MemoryTier} {key : String} {item : Item} (hf : t.find? key = some item) :
    (key, item) ∈ t.items := by
  obtain ⟨l₁, l₂, hl, -⟩ := List.lookup_eq_some_iff.1 hf
  rw [hl]
  exact List.mem_append_right _ List.mem_cons_self

-- A read replaces the entry it finds by one of the same size with the next stamp.
theorem Wf.touch {t : MemoryTier} (h : t.Wf) {key : String} {item : Item}
    (hf : t.find? key = some item) (item' : Item) (hsize : item'.size = item.size)
    (hstamp : item'.recency = t.clock + 1) :
    ({ t with
        clock := t.clock + 1
        items := t.items.map fun (k, i) => if k == key then (k, item') else (k, i) } : MemoryTier).Wf := by
  have hmem := mem_of_find? hf
  have hnodup : t.items.Nodup := h.keys_nodup.of_map _
  -- the one entry under `key` is the one found
  have hunique : ∀ e ∈ t.items, e.1 = key → e = (key, item) := fun e he hk =>
    List.inj_on_of_nodup_map h.keys_nodup he hmem hk
  refine ⟨?_, h.capacity_pos, ?_, ?_, ?_, ?_⟩
  · have hkeys : (t.items.map fun (k, i) => if k == key then (k, item') else (k, i)).map (·.1) =
        t.keys := by
      simp only [keys, List.map_map]
      refine List.map_congr_left fun e _ => ?_
      by_cases hk : e.1 = key <;> simp [hk]
    show (List.map _ _).Nodup
    rw [hkeys]
    exact h.keys_nodup
  · simpa [size] using h.size_le
  · rw [h.bytes_eq, usage, usage, List.map_map]
    congr 1
    refine List.map_congr_left fun e he => ?_
    by_cases hk : e.1 = key
    · rw [hunique e he hk]
      simp [hsize]
    · simp [hk]
  · rw [List.map_map]
    refine List.Nodup.map_on (fun x hx y hy hxy => ?_) hnodup
    by_cases hkx : x.1 = key <;> by_cases hky : y.1 = key
    · rw [hunique x hx hkx, hunique y hy hky]
    · have := h.stamp_le y hy
      simp [hkx, hky, hstamp] at hxy
      omega
    · have := h.stamp_le x hx
      simp [hkx, hky, hstamp] at hxy
      omega
    · simp [hkx, hky] at hxy
      exact List.inj_on_of_nodup_map h.stamps_nodup hx hy hxy
  · simp only [List.mem_map]
    rintro _ ⟨e, he, rfl⟩
    by_cases hk : e.1 = key
    · simp [hk, hstamp]
    · have := h.stamp_le e he
      simp [hk]
      omega

theorem Wf.drop {t : MemoryTier} (h : t.Wf) (key : String) : (t.drop key).Wf :=
  drop_eq h key ▸ h.restrict _

theorem Wf.get {t : MemoryTier} (h : t.Wf) (m : Metrics) (key : String) (now : Nat) :
    (t.get m key now).2.1.Wf := by
  unfold MemoryTier.get
  split
  · exact h
  · rename_i item hf
    split
    · exact h.drop key
    · exact h.touch hf _ rfl rfl

theorem Wf.delete {t : MemoryTier} (h : t.Wf) (m : Metrics) (key : String) :
    (t.delete m key).2.1.Wf := by
  unfold MemoryTier.delete
  split
  · exact h.drop key
  · exact h

-- Dropping the keys of some entries, one after another, is a restriction.
theorem foldl_drop_entries {t : MemoryTier} (h : t.Wf) (doomed : List (String × Item)) :
    doomed.foldl (fun t (k, _) => t.drop k) t = t.restrict fun e => decide (e.1 ∉ doomed.map (·.1)) := by
  rw [← foldl_drop_eq h, List.foldl_map]

-- Removal by pattern drops the matching keys, dead or alive, and counts the live ones.
theorem removeMatching_eq {t : MemoryTier} (hw : t.Wf) (m : Metrics) (pattern : String) (now : Nat) :
    (t.removeMatching m pattern now).1 =
        ((t.items.filter fun e => globMatch pattern e.1).filter fun e => !e.2.expiredAt now).length ∧
      (t.removeMatching m pattern now).2.1 =
        t.restrict fun e => decide (e.1 ∉ (t.items.filter fun e => globMatch pattern e.1).map (·.1)) := by
  unfold MemoryTier.removeMatching
  dsimp only
  split
  · rename_i hempty
    rw [List.isEmpty_iff.1 hempty]
    simp [restrict_true hw]
  · exact ⟨rfl, foldl_drop_entries hw _⟩

theorem sweep_eq {t : MemoryTier} (hw : t.Wf) (m : Metrics) (now : Nat) :
    (t.sweep m now).1 = (t.items.filter fun e => e.2.expiredAt now).length ∧
      (t.sweep m now).2.1 =
        t.restrict fun e => decide (e.1 ∉ (t.items.filter fun e => e.2.expiredAt now).map (·.1)) := by
  unfold MemoryTier.sweep
  dsimp only
  split
  · rename_i hempty
    rw [List.isEmpty_iff.1 hempty]
    simp [restrict_true hw]
  · exact ⟨rfl, foldl_drop_entries hw _⟩

theorem Wf.removeMatching {t : MemoryTier} (h : t.Wf) (m : Metrics) (pattern : String) (now : Nat) :
    (t.removeMatching m pattern now).2.1.Wf :=
  (removeMatching_eq h m pattern now).2 ▸ h.restrict _

theorem Wf.sweep {t : MemoryTier} (h : t.Wf) (m : Metrics) (now : Nat) : (t.sweep m now).2.1.Wf :=
  (sweep_eq h m now).2 ▸ h.restrict _

theorem Wf.clear {t : MemoryTier} (h : t.Wf) (m : Metrics) : (t.clear m).1.Wf where
  keys_nodup := List.nodup_nil
  capacity_pos := h.capacity_pos
  size_le := Nat.zero_le _
  bytes_eq := rfl
  stamps_nodup := List.nodup_nil
  stamp_le := by simp [MemoryTier.clear]

-- The occupancy gauges read the tier.
def Reports (t : MemoryTier) (m : Metrics) : Prop := m.memoryEntries = t.size ∧ m.memoryBytes = t.bytes

theorem reports_publish (t : MemoryTier) (m : Metrics) : Reports t (t.publish m) := ⟨rfl, rfl⟩

variable {t : MemoryTier} {m : Metrics}

theorem Reports.set (h : t.Wf) (key : String) (value : ByteArray) (ttlMs : Nat) (origin : Origin)
    (now : Nat) : Reports (t.set m key value ttlMs origin now).2.1 (t.set m key value ttlMs origin now).2.2 := by
  unfold MemoryTier.set
  dsimp only
  split
  · rw [evictOldest_eq h]
    exact reports_publish _ _
  · exact reports_publish _ _

theorem Reports.get (hr : Reports t m) (key : String) (now : Nat) :
    Reports (t.get m key now).2.1 (t.get m key now).2.2 := by
  unfold MemoryTier.get
  split
  · exact hr
  · split
    · exact reports_publish _ _
    · simpa [Reports, size] using hr

theorem Reports.delete (hr : Reports t m) (key : String) :
    Reports (t.delete m key).2.1 (t.delete m key).2.2 := by
  unfold MemoryTier.delete
  split
  · exact reports_publish _ _
  · exact hr

theorem Reports.removeMatching (hr : Reports t m) (pattern : String) (now : Nat) :
    Reports (t.removeMatching m pattern now).2.1 (t.removeMatching m pattern now).2.2 := by
  unfold MemoryTier.removeMatching
  dsimp only
  split
  · exact hr
  · exact reports_publish _ _

theorem Reports.sweep (hr : Reports t m) (now : Nat) : Reports (t.sweep m now).2.1 (t.sweep m now).2.2 := by
  unfold MemoryTier.sweep
  dsimp only
  split
  · exact hr
  · exact reports_publish _ _

theorem capacity_set (h : t.Wf) (key : String) (value : ByteArray) (ttlMs : Nat) (origin : Origin)
    (now : Nat) : (t.set m key value ttlMs origin now).2.1.capacity = t.capacity := by
  unfold MemoryTier.set
  dsimp only
  split
  · rw [evictOldest_eq h]
    simp [drop_eq (h.restrict _)]
  · simp [drop_eq h]

theorem capacity_get (h : t.Wf) (key : String) (now : Nat) : (t.get m key now).2.1.capacity = t.capacity := by
  unfold MemoryTier.get
  split
  · rfl
  · split
    · simp [drop_eq h]
    · rfl

theorem capacity_delete (h : t.Wf) (key : String) : (t.delete m key).2.1.capacity = t.capacity := by
  unfold MemoryTier.delete
  split
  · simp [drop_eq h]
  · rfl

theorem capacity_removeMatching (h : t.Wf) (pattern : String) (now : Nat) :
    (t.removeMatching m pattern now).2.1.capacity = t.capacity := by
  rw [(removeMatching_eq h m pattern now).2]
  rfl

theorem capacity_sweep (h : t.Wf) (now : Nat) : (t.sweep m now).2.1.capacity = t.capacity := by
  rw [(sweep_eq h m now).2]
  rfl

theorem find?_store (h : t.Wf) (key : String) (item : Item) :
    ({ (t.drop key) with
        clock := t.clock + 1
        items := (t.drop key).items ++ [(key, { item with recency := t.clock + 1 })]
        bytes := (t.drop key).bytes + item.size } : MemoryTier).find? key =
      some { item with recency := t.clock + 1 } := by
  have hk : key ∉ (t.drop key).keys := fun hm => ((mem_keys_drop h key key).1 hm).2 rfl
  have hnone : (t.drop key).find? key = none := find?_eq_none_iff.2 hk
  simp only [find?] at hnone ⊢
  simp [List.lookup_append, hnone]

-- A set never evicts the key it stores: the key holds the new value right after.
theorem find?_set (h : t.Wf) (key : String) (value : ByteArray) (ttlMs : Nat) (origin : Origin)
    (now : Nat) : ((t.set m key value ttlMs origin now).2.1.find? key).map Item.value = some value := by
  unfold MemoryTier.set
  dsimp only
  split
  · rw [evictOldest_eq h]
    exact congrArg (Option.map Item.value)
      (find?_store (h.restrict _) key (Item.create value ttlMs origin now))
  · exact congrArg (Option.map Item.value) (find?_store h key (Item.create value ttlMs origin now))

end MemoryTier

-- An operation on the memory tier, or a step of its clock.
inductive MemoryOp where
  | set (key : String) (value : ByteArray) (ttlMs : Nat) (origin : Origin)
  | get (key : String)
  | peek (key : String)
  | contains (key : String)
  | delete (key : String)
  | removeMatching (pattern : String)
  | sweep
  | clear
  | advance (ms : Nat)

-- What a reader can see of an item without its bookkeeping: value, expiry and last stamp.
structure Slot where
  value : ByteArray
  expires : Nat
  touched : Nat

def Item.slot (i : Item) : Slot := ⟨i.value, i.expires, i.recency⟩

-- What an operation answers.
inductive MemoryReply where
  | count (n : Nat)
  | value (v : Option ByteArray)
  | slot (s : Option Slot)
  | flag (b : Bool)
  | done

open Console

namespace MemoryOp

-- One operation at the clock's time.
def step (r : MemoryRun) : MemoryOp → MemoryReply × MemoryRun
  | set key value ttlMs origin =>
    let (n, t, m) := r.tier.set r.metrics key value ttlMs origin r.now
    (.count n, { r with tier := t, metrics := m })
  | get key =>
    let (v, t, m) := r.tier.get r.metrics key r.now
    (.value v, { r with tier := t, metrics := m })
  | peek key => (.slot ((r.tier.peek key r.now).map Item.slot), r)
  | contains key => (.flag (r.tier.contains key r.now), r)
  | delete key =>
    let (b, t, m) := r.tier.delete r.metrics key
    (.flag b, { r with tier := t, metrics := m })
  | removeMatching pattern =>
    let (n, t, m) := r.tier.removeMatching r.metrics pattern r.now
    (.count n, { r with tier := t, metrics := m })
  | sweep =>
    let (n, t, m) := r.tier.sweep r.metrics r.now
    (.count n, { r with tier := t, metrics := m })
  | clear =>
    let (t, m) := r.tier.clear r.metrics
    (.done, { r with tier := t, metrics := m })
  | advance ms => (.done, { r with now := r.now + ms })

-- Operations one after another, with their answers in order.
def run (r : MemoryRun) : List MemoryOp → List MemoryReply × MemoryRun
  | [] => ([], r)
  | op :: ops =>
    let (reply, r) := op.step r
    let (replies, r) := run r ops
    (reply :: replies, r)

@[simp] theorem run_nil (r : MemoryRun) : run r [] = ([], r) := rfl

@[simp] theorem run_cons (r : MemoryRun) (op : MemoryOp) (ops : List MemoryOp) :
    run r (op :: ops) = ((op.step r).1 :: (run (op.step r).2 ops).1, (run (op.step r).2 ops).2) := rfl

end MemoryOp

-- A memory tier that is well formed, whose gauges read it, with the capacity it was made with.
structure Console.MemoryRun.Wf (r : MemoryRun) (capacity : Nat) : Prop where
  tier : r.tier.Wf
  reports : r.tier.Reports r.metrics
  capacity_eq : r.tier.capacity = max capacity 1

namespace MemoryOp

variable {r : MemoryRun} {capacity : Nat}

theorem step_wf (h : r.Wf capacity) (op : MemoryOp) : (op.step r).2.Wf capacity := by
  obtain ⟨ht, hr, hc⟩ := h
  cases op with
  | set key value ttlMs origin =>
    exact ⟨ht.set _ _ _ _ _ _, MemoryTier.Reports.set ht _ _ _ _ _,
      (MemoryTier.capacity_set ht _ _ _ _ _).trans hc⟩
  | get key => exact ⟨ht.get _ _ _, hr.get _ _, (MemoryTier.capacity_get ht _ _).trans hc⟩
  | peek key => exact ⟨ht, hr, hc⟩
  | contains key => exact ⟨ht, hr, hc⟩
  | delete key => exact ⟨ht.delete _ _, hr.delete _, (MemoryTier.capacity_delete ht _).trans hc⟩
  | removeMatching pattern =>
    exact ⟨ht.removeMatching _ _ _, hr.removeMatching _ _,
      (MemoryTier.capacity_removeMatching ht _ _).trans hc⟩
  | sweep => exact ⟨ht.sweep _ _, hr.sweep _, (MemoryTier.capacity_sweep ht _).trans hc⟩
  | clear => exact ⟨ht.clear r.metrics, MemoryTier.reports_publish _ _, hc⟩
  | advance ms => exact ⟨ht, hr, hc⟩

theorem run_wf (h : r.Wf capacity) (ops : List MemoryOp) : (run r ops).2.Wf capacity := by
  induction ops generalizing r with
  | nil => exact h
  | cons op ops ih => exact ih (step_wf h op)

end MemoryOp

theorem fresh_wf (capacity : Nat) : ({ tier := MemoryTier.create capacity } : MemoryRun).Wf capacity :=
  ⟨MemoryTier.create_wf capacity, ⟨rfl, rfl⟩, rfl⟩

-- After every run of operations on a new tier: it holds at most its capacity (one at least), its
-- byte count is the sum of its items' sizes so no removal ever subtracts more than it holds, the
-- gauges read its entries and bytes, its stamps are distinct and no later than its clock, and a
-- set leaves the key it stores resident with the new value.
theorem memory_run_keeps_accounting (capacity : Nat) (ops : List MemoryOp) :
    let r := (MemoryOp.run { tier := MemoryTier.create capacity } ops).2
    r.tier.size ≤ max capacity 1 ∧
    r.tier.bytes = MemoryTier.usage r.tier.items ∧
    (∀ key item, r.tier.find? key = some item → item.size ≤ r.tier.bytes) ∧
    r.metrics.memoryEntries = r.tier.size ∧ r.metrics.memoryBytes = r.tier.bytes ∧
    (r.tier.items.map (·.2.recency)).Nodup ∧ (∀ e ∈ r.tier.items, e.2.recency ≤ r.tier.clock) ∧
    ∀ key value ttlMs origin,
      (((MemoryOp.set key value ttlMs origin).step r).2.tier.find? key).map Item.value = some value := by
  intro r
  obtain ⟨ht, ⟨hentries, hbytes⟩, hc⟩ := MemoryOp.run_wf (fresh_wf capacity) ops
  refine ⟨hc ▸ ht.size_le, ht.bytes_eq, fun key item hf => ?_, hentries, hbytes, ht.stamps_nodup,
    ht.stamp_le, fun key value ttlMs origin => MemoryTier.find?_set ht key value ttlMs origin _⟩
  have := MemoryTier.usage_filter_ne ht.keys_nodup hf
  rw [ht.bytes_eq]
  omega

end TierCache
