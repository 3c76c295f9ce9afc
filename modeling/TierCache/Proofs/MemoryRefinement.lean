import TierCache.Proofs.RecencyMap

/-!
# The memory tier refines its reference model

Eviction by rank agrees with eviction by last touch because stamps are distinct and in time order
(`MemoryTier.Timely`).
-/

namespace TierCache

namespace Item

theorem rankLE_eq (a b : Item) : a.rankLE b =
    (decide (a.rank.1 < b.rank.1) || (a.rank.1 == b.rank.1 && decide (a.recency ≤ b.recency))) :=
  rfl

theorem rankLE_trans (a b c : Item) (hab : a.rankLE b) (hbc : b.rankLE c) : a.rankLE c := by
  simp only [rankLE_eq, Bool.or_eq_true, decide_eq_true_eq, Bool.and_eq_true, beq_iff_eq] at hab hbc ⊢
  omega

theorem rankLE_total (a b : Item) : (a.rankLE b || b.rankLE a) = true := by
  simp only [rankLE_eq, Bool.or_eq_true, decide_eq_true_eq, Bool.and_eq_true, beq_iff_eq]
  omega

-- An item is live before its expiry instant.
theorem not_expiredAt (i : Item) (now : Nat) : (!i.expiredAt now) = decide (now < i.expires) := by
  simp only [expiredAt, ge_iff_le, ← decide_not, Nat.not_le]

@[simp] theorem slot_value (i : Item) : i.slot.value = i.value := rfl
@[simp] theorem slot_expires (i : Item) : i.slot.expires = i.expires := rfl
@[simp] theorem slot_touched (i : Item) : i.slot.touched = i.recency := rfl

end Item

-- In a list sorted by a strictly increasing measure, the first `n` elements are those with fewer
-- than `n` elements below them.
theorem mem_take_iff_of_pairwise_lt {α : Type} {f : α → Nat} {l : List α}
    (hl : l.Pairwise fun a b => f a < f b) {x : α} (hx : x ∈ l) (n : Nat) :
    x ∈ l.take n ↔ (l.filter fun y => f y < f x).length < n := by
  induction l generalizing n with
  | nil => simp at hx
  | cons a l ih =>
    obtain ⟨hfirst, hrest⟩ := List.pairwise_cons.1 hl
    cases n with
    | zero => simp
    | succ n =>
      rw [List.take_succ_cons, List.mem_cons]
      rcases List.mem_cons.1 hx with rfl | hx
      · -- the head has nothing below it
        have hnone : (l.filter fun y => f y < f x).length = 0 := by
          rw [List.length_eq_zero_iff, List.filter_eq_nil_iff]
          intro y hy
          have := hfirst y hy
          simp only [decide_eq_true_eq]
          omega
        simp [hnone]
      · have hax : f a < f x := hfirst x hx
        have hne : x ≠ a := fun h => Nat.lt_irrefl (f a) (h ▸ hax)
        simp [hne, hax, ih hrest hx n]

theorem lookup_filter_key {β : Type} (l : List (String × β)) (q : String → Bool) (k : String) :
    (l.filter fun e => q e.1).lookup k = if q k then l.lookup k else none := by
  induction l with
  | nil => simp
  | cons e l ih =>
    obtain ⟨k', i⟩ := e
    by_cases hk : k = k'
    · subst hk
      by_cases hq : q k <;> simp [hq, ih]
    · have hbeq : (k == k') = false := beq_false_of_ne hk
      by_cases hq : q k' <;> simp [hq, ih, List.lookup_cons, hbeq]

namespace MemoryTier

variable {t : MemoryTier} {now : Nat}

theorem find?_restrict_not_mem (t : MemoryTier) (ks : List String) (k : String) :
    (t.restrict fun e => decide (e.1 ∉ ks)).find? k = if k ∈ ks then none else t.find? k := by
  have := lookup_filter_key t.items (fun k => decide (k ∉ ks)) k
  simp only [decide_not, Bool.not_eq_true', decide_eq_false_iff_not] at this
  simp only [find?, restrict_items, decide_not]
  rw [this]
  by_cases hk : k ∈ ks <;> simp [hk]

theorem drop_eq_restrict (h : t.Wf) (key : String) :
    t.drop key = t.restrict fun e => decide (e.1 ∉ [key]) :=
  foldl_drop_eq h [key]

theorem find?_of_mem (h : t.Wf) {e : String × Item} (he : e ∈ t.items) : t.find? e.1 = some e.2 := by
  obtain ⟨item, hf⟩ : ∃ item, t.find? e.1 = some item := by
    cases hf : t.find? e.1 with
    | none => exact absurd (List.mem_map_of_mem he) (find?_eq_none_iff.1 hf)
    | some item => exact ⟨item, rfl⟩
  have := List.inj_on_of_nodup_map h.keys_nodup (mem_of_find? hf) he rfl
  rw [hf, ← this]

theorem find?_drop (h : t.Wf) (key k : String) :
    (t.drop key).find? k = if k = key then none else t.find? k := by
  rw [drop_eq_restrict h key, find?_restrict_not_mem]
  simp

-- Storing appends the new entry after dropping the old one: the key reads the new item.
theorem find?_store_eq (h : t.Wf) (key k : String) (item : Item) (clock bytes : Nat) :
    ({ (t.drop key) with clock, items := (t.drop key).items ++ [(key, item)], bytes } :
      MemoryTier).find? k = if k = key then some item else t.find? k := by
  have hdrop := find?_drop h key k
  simp only [find?] at hdrop ⊢
  rw [List.lookup_append, hdrop]
  by_cases hk : k = key
  · simp [hk]
  · rw [if_neg hk, List.lookup_cons, beq_false_of_ne hk]
    simp [hk]

theorem lookup_touch (l : List (String × Item)) (key k : String) (item : Item) :
    (l.map fun (k, i) => if k == key then (k, item) else (k, i)).lookup k =
      (l.lookup k).map fun i => if k = key then item else i := by
  induction l with
  | nil => simp
  | cons e l ih =>
    obtain ⟨k', i⟩ := e
    by_cases hk : k = k'
    · subst hk
      by_cases hkey : k = key <;> simp [hkey]
    · -- the head keeps its key, which is not the one looked up
      obtain ⟨i', hi'⟩ : ∃ i', (if (k' == key) = true then (k', item) else (k', i)) = (k', i') := by
        by_cases hkey : k' = key <;> simp [hkey]
      simp only [List.map_cons]
      rw [hi', List.lookup_cons, List.lookup_cons, beq_false_of_ne hk, ih]

/-! ## Stamps follow the clock -/

-- No entry was touched after `now`, and a later stamp never carries an earlier touch instant.
structure Timely (t : MemoryTier) (now : Nat) : Prop where
  seen_le : ∀ e ∈ t.items, e.2.rank.1 ≤ now
  seen_mono : ∀ e₁ ∈ t.items, ∀ e₂ ∈ t.items, e₁.2.recency < e₂.2.recency → e₁.2.rank.1 ≤ e₂.2.rank.1

theorem timely_create (capacity now : Nat) : (create capacity).Timely now :=
  ⟨fun _ he => absurd he List.not_mem_nil, fun _ he => absurd he List.not_mem_nil⟩

theorem Timely.restrict (h : t.Timely now) (p : String × Item → Bool) : (t.restrict p).Timely now where
  seen_le e he := h.seen_le e (List.mem_of_mem_filter he)
  seen_mono e₁ h₁ e₂ h₂ := h.seen_mono e₁ (List.mem_of_mem_filter h₁) e₂ (List.mem_of_mem_filter h₂)

theorem Timely.later (h : t.Timely now) {later : Nat} (hle : now ≤ later) : t.Timely later :=
  ⟨fun e he => Nat.le_trans (h.seen_le e he) hle, h.seen_mono⟩

-- A stored item touched at `now` under the next stamp is the newest entry in both orders.
theorem Timely.store (hw : t.Wf) (h : t.Timely now) (key : String) (item : Item)
    (hseen : item.rank.1 = now) (bytes : Nat) :
    ({ (t.drop key) with
        clock := t.clock + 1
        items := (t.drop key).items ++ [(key, { item with recency := t.clock + 1 })]
        bytes } : MemoryTier).Timely now := by
  have hd : (t.drop key).Timely now := drop_eq hw key ▸ h.restrict _
  have hsub : ∀ e ∈ (t.drop key).items, e ∈ t.items := by
    rw [drop_eq hw key]
    exact fun e he => List.mem_of_mem_filter he
  constructor
  · simp only [List.mem_append, List.mem_singleton]
    rintro e (he | rfl)
    · exact hd.seen_le e he
    · exact Nat.le_of_eq hseen
  · simp only [List.mem_append, List.mem_singleton]
    rintro e₁ (h₁ | rfl) e₂ (h₂ | rfl) hlt
    · exact hd.seen_mono e₁ h₁ e₂ h₂ hlt
    · exact Nat.le_trans (hd.seen_le e₁ h₁) (Nat.le_of_eq hseen.symm)
    · -- the new stamp is above every resident one
      have := hw.stamp_le e₂ (hsub e₂ h₂)
      simp only at hlt
      omega
    · exact Nat.le_refl _

-- A read touches its entry at `now` under the next stamp.
theorem Timely.touch (hw : t.Wf) (h : t.Timely now) (key : String) (item : Item)
    (hseen : item.rank.1 = now) (hstamp : item.recency = t.clock + 1) :
    ({ t with
        clock := t.clock + 1
        items := t.items.map fun (k, i) => if k == key then (k, item) else (k, i) } :
      MemoryTier).Timely now := by
  constructor
  · simp only [List.mem_map]
    rintro _ ⟨⟨k, i⟩, he, rfl⟩
    by_cases hk : k = key
    · simp [hk, hseen]
    · simpa [hk] using h.seen_le _ he
  · simp only [List.mem_map]
    rintro _ ⟨⟨k₁, i₁⟩, h₁, rfl⟩ _ ⟨⟨k₂, i₂⟩, h₂, rfl⟩ hlt
    have hle₁ := h.seen_le _ h₁
    have hst₂ := hw.stamp_le _ h₂
    by_cases hk₁ : k₁ = key <;> by_cases hk₂ : k₂ = key
    · simp [hk₁, hk₂]
    · simp [hk₁, hk₂, hstamp] at hlt hst₂
      omega
    · simpa [hk₁, hk₂, hseen] using hle₁
    · simpa [hk₁, hk₂] using h.seen_mono _ h₁ _ h₂ (by simpa [hk₁, hk₂] using hlt)

/-! ## Eviction order is stamp order -/

-- On a timely tier, rank order between two different entries is stamp order.
theorem recency_lt_of_rankLE (hw : t.Wf) (ht : t.Timely now) {a b : String × Item}
    (ha : a ∈ t.items) (hb : b ∈ t.items) (hle : a.2.rankLE b.2) (hne : a ≠ b) :
    a.2.recency < b.2.recency := by
  have hstamp : a.2.recency ≠ b.2.recency := fun heq =>
    hne (List.inj_on_of_nodup_map hw.stamps_nodup ha hb heq)
  by_contra hge
  have hseen := ht.seen_mono b hb a ha (by omega)
  rw [Item.rankLE_eq] at hle
  simp only [Bool.or_eq_true, decide_eq_true_eq, Bool.and_eq_true, beq_iff_eq] at hle
  omega

theorem pairwise_evictionOrder (hw : t.Wf) (ht : t.Timely now) :
    (t.items.mergeSort fun a b => a.2.rankLE b.2).Pairwise fun a b => a.2.recency < b.2.recency := by
  have hperm := List.mergeSort_perm t.items fun a b => a.2.rankLE b.2
  have hsorted := List.pairwise_mergeSort (fun a b c => Item.rankLE_trans a.2 b.2 c.2)
    (fun a b => Item.rankLE_total a.2 b.2) t.items
  have hnodup := hperm.nodup_iff.2 (hw.keys_nodup.of_map _)
  exact (hsorted.and hnodup).imp_of_mem fun ha hb hab =>
    recency_lt_of_rankLE hw ht (hperm.mem_iff.1 ha) (hperm.mem_iff.1 hb) hab.1 hab.2

-- A resident key names only its own entry: among entries of the tier, the key stands for it.
theorem key_mem_map_iff (hw : t.Wf) {l : List (String × Item)} (hl : ∀ x ∈ l, x ∈ t.items)
    {e : String × Item} (he : e ∈ t.items) : e.1 ∈ l.map (·.1) ↔ e ∈ l := by
  constructor
  · intro hm
    obtain ⟨e', he', hk⟩ := List.mem_map.1 hm
    exact List.inj_on_of_nodup_map hw.keys_nodup (hl e' he') he hk ▸ he'
  · exact List.mem_map_of_mem

-- An entry is among the first `n` in eviction order exactly when fewer than `n` entries carry an
-- older stamp.
theorem mem_victims_iff (hw : t.Wf) (ht : t.Timely now) {e : String × Item} (he : e ∈ t.items)
    (n : Nat) :
    e.1 ∈ ((t.items.mergeSort fun a b => a.2.rankLE b.2).take n).map (·.1) ↔
      (t.items.filter fun y => y.2.recency < e.2.recency).length < n := by
  have hperm := List.mergeSort_perm t.items fun a b => a.2.rankLE b.2
  have hsub : ∀ x ∈ (t.items.mergeSort fun a b => a.2.rankLE b.2).take n, x ∈ t.items :=
    fun x hx => hperm.mem_iff.1 (List.mem_of_mem_take hx)
  rw [key_mem_map_iff hw hsub he,
    mem_take_iff_of_pairwise_lt (pairwise_evictionOrder hw ht) (hperm.mem_iff.2 he) n,
    (hperm.filter _).length_eq]

theorem key_mem_map_filter_iff (hw : t.Wf) (q : String × Item → Bool) {e : String × Item}
    (he : e ∈ t.items) : e.1 ∈ (t.items.filter q).map (·.1) ↔ q e = true := by
  rw [key_mem_map_iff hw (fun x hx => List.mem_of_mem_filter hx) he, List.mem_filter]
  exact and_iff_right he

/-! ## The tier and the model hold the same slots -/

-- The tier holds what the model holds: the same slot under every key, the same stamp counter and
-- the same capacity.
structure Agrees (t : MemoryTier) (M : RecencyMap) : Prop where
  lookup_eq : ∀ k, M.lookup k = (t.find? k).map Item.slot
  seq_eq : M.seq = t.clock
  capacity_eq : M.capacity = t.capacity

namespace Agrees

variable {M : RecencyMap}

theorem mem_keys (hA : t.Agrees M) (k : String) : k ∈ M.keys ↔ k ∈ t.keys := by
  rw [← not_iff_not, ← RecencyMap.lookup_eq_none_iff, ← find?_eq_none_iff, hA.lookup_eq,
    Option.map_eq_none_iff]

theorem slot_eq (hA : t.Agrees M) (hw : t.Wf) {e : String × Item} (he : e ∈ t.items) :
    M.slot e.1 = e.2.slot := by
  have := hA.lookup_eq e.1
  rw [find?_of_mem hw he, Option.map_some] at this
  exact (RecencyMap.lookup_eq_some_iff.1 this).2

-- Distinct stamps make distinct touches in the model.
theorem distinct (hA : t.Agrees M) (hw : t.Wf) : M.Distinct := by
  intro a ha b hb heq
  obtain ⟨ea, hea, rfl⟩ := List.mem_map.1 ((hA.mem_keys a).1 (Finset.mem_coe.1 ha))
  obtain ⟨eb, heb, rfl⟩ := List.mem_map.1 ((hA.mem_keys b).1 (Finset.mem_coe.1 hb))
  have hstamp : ea.2.recency = eb.2.recency := by
    simpa [hA.slot_eq hw hea, hA.slot_eq hw heb] using heq
  rw [List.inj_on_of_nodup_map hw.stamps_nodup hea heb hstamp]

-- Counting the model's keys counts the tier's entries.
theorem card_filter (hA : t.Agrees M) (hw : t.Wf) (p : String → Prop) [DecidablePred p] :
    (M.keys.filter p).card = (t.items.filter fun e => decide (p e.1)).length := by
  have hfin : M.keys.filter p = (t.keys.filter fun k => decide (p k)).toFinset := by
    ext k
    simp [hA.mem_keys]
  rw [hfin, List.toFinset_card_of_nodup (hw.keys_nodup.filter _), keys, List.filter_map,
    List.length_map]
  rfl

theorem card_keys (hA : t.Agrees M) (hw : t.Wf) : M.keys.card = t.size := by
  simpa [size] using hA.card_filter hw fun _ => True

-- An entry's age in the model counts the tier's entries with an older stamp.
theorem age_eq (hA : t.Agrees M) (hw : t.Wf) {e : String × Item} (he : e ∈ t.items) :
    M.age e.1 = (t.items.filter fun y => y.2.recency < e.2.recency).length := by
  rw [RecencyMap.age, hA.card_filter hw]
  congr 1
  refine List.filter_congr fun y hy => ?_
  rw [hA.slot_eq hw hy, hA.slot_eq hw he]
  rfl

-- Dropping the keys of a list agrees with keeping, in the model, the keys of a predicate that
-- holds of a resident key exactly when the key is not in the list.
theorem keep (hA : t.Agrees M) (ks : List String) (p : String → Prop) [DecidablePred p]
    (hp : ∀ e ∈ t.items, p e.1 ↔ e.1 ∉ ks) :
    (t.restrict fun e => decide (e.1 ∉ ks)).Agrees (M.keepIf p) where
  lookup_eq k := by
    rw [RecencyMap.lookup_keepIf, find?_restrict_not_mem, hA.lookup_eq]
    cases hf : t.find? k with
    | none => simp
    | some i =>
      have hpk := hp (k, i) (mem_of_find? hf)
      by_cases hk : k ∈ ks <;> simp_all
  seq_eq := hA.seq_eq
  capacity_eq := hA.capacity_eq

theorem drop (hA : t.Agrees M) (hw : t.Wf) (key : String) :
    (t.drop key).Agrees (M.keepIf (· ≠ key)) := by
  rw [drop_eq_restrict hw key]
  exact hA.keep [key] _ fun e _ => by simp

-- The tier's eviction of the oldest tenth is the model's.
theorem evict (hA : t.Agrees M) (hw : t.Wf) (ht : t.Timely now) (m : Metrics) :
    (evictOldest t m).2.1.Agrees (M.evict ((t.size + 9) / 10)) := by
  rw [evictOldest_eq hw]
  refine hA.keep _ _ fun e he => ?_
  rw [hA.age_eq hw he, mem_victims_iff hw ht he]
  exact Nat.not_lt.symm

theorem store (hA : t.Agrees M) (hw : t.Wf) (key : String) (item : Item) (bytes : Nat) :
    ({ (t.drop key) with
        clock := t.clock + 1
        items := (t.drop key).items ++ [(key, item)]
        bytes } : MemoryTier).Agrees { M.write key item.slot with seq := M.seq + 1 } where
  lookup_eq k := by
    rw [find?_store_eq hw]
    change (M.write key item.slot).lookup k = _
    rw [RecencyMap.lookup_write, hA.lookup_eq]
    by_cases hk : k = key <;> simp [hk]
  seq_eq := by simp [hA.seq_eq]
  capacity_eq := by simp [drop_eq hw, hA.capacity_eq]

theorem touch (hA : t.Agrees M) {key : String} {i : Item} (hf : t.find? key = some i) (item : Item) :
    ({ t with
        clock := t.clock + 1
        items := t.items.map fun (k, i) => if k == key then (k, item) else (k, i) } :
      MemoryTier).Agrees { M.write key item.slot with seq := t.clock + 1 } where
  lookup_eq k := by
    change (M.write key item.slot).lookup k = ((t.items.map _).lookup k).map Item.slot
    rw [RecencyMap.lookup_write, lookup_touch, hA.lookup_eq]
    by_cases hk : k = key
    · subst hk
      simp [find?] at hf
      simp [hf]
    · simp [hk, find?]
  seq_eq := rfl
  capacity_eq := hA.capacity_eq

theorem clear (hA : t.Agrees M) (m : Metrics) : (t.clear m).1.Agrees { M with keys := ∅ } where
  lookup_eq k := by simp [RecencyMap.lookup, find?, MemoryTier.clear]
  seq_eq := hA.seq_eq
  capacity_eq := hA.capacity_eq

end Agrees

/-! ## One operation at a time -/

variable {M : RecencyMap}

-- A set stores the new item, touched now under the next stamp, into the tier as it stands
-- after any eviction.
theorem store_refines (hw : t.Wf) (ht : t.Timely now) (hA : t.Agrees M) (hnow : M.now = now)
    (key : String) (value : ByteArray) (ttlMs : Nat) (origin : Origin) (bytes : Nat) :
    ({ (t.drop key) with
        clock := t.clock + 1
        items := (t.drop key).items ++
          [(key, { Item.create value ttlMs origin now with recency := t.clock + 1 })]
        bytes } : MemoryTier).Agrees
      { M.write key ⟨value, M.now + max ttlMs 1, M.seq + 1⟩ with seq := M.seq + 1 } ∧
    ({ (t.drop key) with
        clock := t.clock + 1
        items := (t.drop key).items ++
          [(key, { Item.create value ttlMs origin now with recency := t.clock + 1 })]
        bytes } : MemoryTier).Timely now := by
  have hslot : ({ Item.create value ttlMs origin now with recency := t.clock + 1 } : Item).slot =
      ⟨value, M.now + max ttlMs 1, M.seq + 1⟩ := by
    simp [Item.slot, Item.create, hnow, hA.seq_eq]
  refine ⟨?_, ht.store hw key _ rfl bytes⟩
  rw [← hslot]
  exact hA.store hw key _ bytes

theorem set_refines (hw : t.Wf) (ht : t.Timely now) (hA : t.Agrees M) (hnow : M.now = now)
    (m : Metrics) (key : String) (value : ByteArray) (ttlMs : Nat) (origin : Origin) :
    (t.set m key value ttlMs origin now).1 = (M.set key value ttlMs).1 ∧
    (t.set m key value ttlMs origin now).2.1.Agrees (M.set key value ttlMs).2 ∧
    (t.set m key value ttlMs origin now).2.1.Timely now := by
  -- the tier evicts exactly when the model does
  have hfull : ((t.find? key).isNone && decide (t.size ≥ t.capacity)) = true ↔
      key ∉ M.keys ∧ M.capacity ≤ M.keys.card := by
    rw [hA.mem_keys, hA.card_keys hw, hA.capacity_eq, ← find?_eq_none_iff]
    simp [Option.isNone_iff_eq_none]
  unfold MemoryTier.set RecencyMap.set
  dsimp only
  by_cases hc : key ∉ M.keys ∧ M.capacity ≤ M.keys.card
  · rw [if_pos (hfull.2 hc), if_pos hc]
    -- the evicted tier is a restriction of this one, so it keeps every invariant
    have hw₁ : (evictOldest t m).2.1.Wf := by
      rw [evictOldest_eq hw]
      exact hw.restrict _
    have ht₁ : (evictOldest t m).2.1.Timely now := by
      rw [evictOldest_eq hw]
      exact ht.restrict _
    have hclock : (evictOldest t m).2.1.clock = t.clock := by
      rw [evictOldest_eq hw]
      rfl
    have hn : (evictOldest t m).1 = (t.size + 9) / 10 := by
      rw [evictOldest_eq hw]
    have hstore := store_refines hw₁ ht₁ (hA.evict hw ht m) hnow key value ttlMs origin
    rw [hA.card_keys hw]
    exact ⟨hn, (hstore _).1, (hstore _).2⟩
  · rw [if_neg (mt hfull.1 hc), if_neg hc, RecencyMap.evict_zero]
    have hstore := store_refines hw ht hA hnow key value ttlMs origin
    exact ⟨rfl, (hstore _).1, (hstore _).2⟩

theorem get_refines (hw : t.Wf) (ht : t.Timely now) (hA : t.Agrees M) (hnow : M.now = now)
    (m : Metrics) (key : String) :
    (t.get m key now).1 = (M.get key).1 ∧ (t.get m key now).2.1.Agrees (M.get key).2 ∧
      (t.get m key now).2.1.Timely now := by
  unfold MemoryTier.get RecencyMap.get
  rw [hA.lookup_eq key]
  cases hf : t.find? key with
  | none => exact ⟨rfl, hA, ht⟩
  | some item =>
    dsimp only [Option.map_some]
    by_cases hexp : item.expiredAt now = true
    · -- an expired entry is dropped on both sides
      have hle : item.slot.expires ≤ M.now := by
        simpa [Item.expiredAt, hnow] using hexp
      rw [if_pos hexp, if_pos hle]
      exact ⟨rfl, hA.drop hw key, drop_eq hw key ▸ ht.restrict _⟩
    · have hlt : ¬item.slot.expires ≤ M.now := by
        simpa [Item.expiredAt, hnow] using hexp
      rw [if_neg hexp, if_neg hlt]
      rw [hA.seq_eq]
      exact ⟨rfl, hA.touch hf _, ht.touch hw key _ rfl rfl⟩

theorem peek_agrees (hA : t.Agrees M) (hnow : M.now = now) (key : String) :
    M.peek key = (t.peek key now).map Item.slot := by
  unfold RecencyMap.peek MemoryTier.peek
  rw [hA.lookup_eq, hnow]
  cases t.find? key with
  | none => rfl
  | some item => by_cases hlive : now < item.expires <;> simp [Option.filter, Item.expiredAt, hlive]

theorem delete_eq (hA : t.Agrees M) (m : Metrics) (key : String) :
    (t.delete m key).1 = decide (key ∈ M.keys) ∧ (t.delete m key).2.1 = t.drop key := by
  unfold MemoryTier.delete
  simp only [hA.mem_keys]
  cases hf : t.find? key with
  | none =>
    have hk : key ∉ t.keys := find?_eq_none_iff.1 hf
    simp [hk, MemoryTier.drop, hf]
  | some item =>
    have hk : key ∈ t.keys := by
      by_contra hk
      rw [find?_eq_none_iff.2 hk] at hf
      cases hf
    simp [hk]

theorem removeMatching_refines (hw : t.Wf) (hA : t.Agrees M) (hnow : M.now = now) (m : Metrics)
    (pattern : String) :
    (t.removeMatching m pattern now).1 = (M.removeMatching pattern).1 ∧
      (t.removeMatching m pattern now).2.1.Agrees (M.removeMatching pattern).2 := by
  obtain ⟨hcount, htier⟩ := removeMatching_eq hw m pattern now
  refine ⟨?_, ?_⟩
  · rw [hcount, RecencyMap.removeMatching, hA.card_filter hw, List.filter_filter]
    congr 1
    refine List.filter_congr fun e he => ?_
    simp [hA.slot_eq hw he, hnow, Item.not_expiredAt, Bool.and_comm]
  · rw [htier]
    refine hA.keep _ _ fun e he => ?_
    rw [key_mem_map_filter_iff hw _ he]

theorem sweep_refines (hw : t.Wf) (hA : t.Agrees M) (hnow : M.now = now) (m : Metrics) :
    (t.sweep m now).1 = M.sweep.1 ∧ (t.sweep m now).2.1.Agrees M.sweep.2 := by
  obtain ⟨hcount, htier⟩ := sweep_eq hw m now
  refine ⟨?_, ?_⟩
  · rw [hcount, RecencyMap.sweep, hA.card_filter hw]
    congr 1
    refine List.filter_congr fun e he => ?_
    simp [hA.slot_eq hw he, hnow, Item.expiredAt]
  · rw [htier]
    refine hA.keep _ _ fun e he => ?_
    rw [key_mem_map_filter_iff hw _ he, hA.slot_eq hw he, hnow]
    simp [Item.expiredAt]

end MemoryTier

/-! ## Every run -/

open Console

-- A run of the tier simulates the model: its tier is well formed, timely at the run's clock and
-- holds the model's slots, and the two clocks read the same.
structure Console.MemoryRun.Refines (r : MemoryRun) (M : RecencyMap) : Prop where
  wf : r.tier.Wf
  timely : r.tier.Timely r.now
  agrees : r.tier.Agrees M
  now_eq : M.now = r.now

theorem fresh_refines (capacity : Nat) :
    ({ tier := MemoryTier.create capacity } : MemoryRun).Refines (RecencyMap.empty (max capacity 1)) where
  wf := MemoryTier.create_wf capacity
  timely := MemoryTier.timely_create capacity 0
  agrees := ⟨fun k => by simp [RecencyMap.empty, RecencyMap.lookup, MemoryTier.create, MemoryTier.find?],
    rfl, rfl⟩
  now_eq := rfl

namespace MemoryOp

variable {r : MemoryRun} {M : RecencyMap}

-- One operation answers as the model does and keeps the simulation.
theorem step_refines (h : r.Refines M) (op : MemoryOp) :
    (op.step r).1 = (M.step op).1 ∧ (op.step r).2.Refines (M.step op).2 := by
  obtain ⟨hw, ht, hA, hnow⟩ := h
  cases op with
  | set key value ttlMs origin =>
    obtain ⟨hn, hA', ht'⟩ := MemoryTier.set_refines hw ht hA hnow r.metrics key value ttlMs origin
    exact ⟨congrArg MemoryReply.count hn, hw.set _ _ _ _ _ _, ht', hA', hnow⟩
  | get key =>
    obtain ⟨hv, hA', ht'⟩ := MemoryTier.get_refines hw ht hA hnow r.metrics key
    exact ⟨congrArg MemoryReply.value hv, hw.get _ _ _, ht', hA', (RecencyMap.get_now).trans hnow⟩
  | peek key =>
    exact ⟨congrArg MemoryReply.slot (MemoryTier.peek_agrees hA hnow key).symm, hw, ht, hA, hnow⟩
  | contains key =>
    have hflag : r.tier.contains key r.now = (M.peek key).isSome := by
      rw [MemoryTier.peek_agrees hA hnow key, Option.isSome_map]
      rfl
    exact ⟨congrArg MemoryReply.flag hflag, hw, ht, hA, hnow⟩
  | delete key =>
    obtain ⟨hb, htier⟩ := MemoryTier.delete_eq hA r.metrics key
    have hw' : (r.tier.delete r.metrics key).2.1.Wf := hw.delete _ _
    refine ⟨congrArg MemoryReply.flag hb, hw', ?_, ?_, hnow⟩
    · show (r.tier.delete r.metrics key).2.1.Timely r.now
      rw [htier, MemoryTier.drop_eq hw]
      exact ht.restrict _
    · show (r.tier.delete r.metrics key).2.1.Agrees (M.keepIf (· ≠ key))
      rw [htier]
      exact hA.drop hw key
  | removeMatching pattern =>
    obtain ⟨hn, hA'⟩ := MemoryTier.removeMatching_refines hw hA hnow r.metrics pattern
    have ht' : (r.tier.removeMatching r.metrics pattern r.now).2.1.Timely r.now := by
      rw [(MemoryTier.removeMatching_eq hw r.metrics pattern r.now).2]
      exact ht.restrict _
    exact ⟨congrArg MemoryReply.count hn, hw.removeMatching _ _ _, ht', hA', hnow⟩
  | sweep =>
    obtain ⟨hn, hA'⟩ := MemoryTier.sweep_refines hw hA hnow r.metrics
    have ht' : (r.tier.sweep r.metrics r.now).2.1.Timely r.now := by
      rw [(MemoryTier.sweep_eq hw r.metrics r.now).2]
      exact ht.restrict _
    exact ⟨congrArg MemoryReply.count hn, hw.sweep _ _, ht', hA', hnow⟩
  | clear =>
    have ht' : (r.tier.clear r.metrics).1.Timely r.now :=
      ⟨fun _ he => absurd he List.not_mem_nil, fun _ he => absurd he List.not_mem_nil⟩
    exact ⟨rfl, hw.clear r.metrics, ht', hA.clear r.metrics, hnow⟩
  | advance ms =>
    exact ⟨rfl, hw, ht.later (Nat.le_add_right _ _), ⟨hA.lookup_eq, hA.seq_eq, hA.capacity_eq⟩,
      by simp [RecencyMap.step, step, hnow]⟩

-- Every run answers as the model does and keeps the simulation.
theorem run_refines (h : r.Refines M) (ops : List MemoryOp) :
    (run r ops).1 = (M.run ops).1 ∧ (run r ops).2.Refines (M.run ops).2 := by
  induction ops generalizing r M with
  | nil => exact ⟨rfl, h⟩
  | cons op ops ih =>
    obtain ⟨hreply, hstep⟩ := step_refines h op
    obtain ⟨hreplies, hrun⟩ := ih hstep
    rw [run_cons, RecencyMap.run_cons, hreply, hreplies]
    exact ⟨rfl, hrun⟩

end MemoryOp

-- Every run of operations on a new tier answers as the reference model does, operation by
-- operation, and leaves the same slot (value, expiry and last touch) under every key. Every state
-- the model reaches has distinct touches, so each of its evictions removes exactly its count of
-- the entries touched longest ago (`RecencyMap.card_evicted`).
theorem memory_tier_refines_recency_model (capacity : Nat) (ops : List MemoryOp) :
    (MemoryOp.run { tier := MemoryTier.create capacity } ops).1 =
      ((RecencyMap.empty (max capacity 1)).run ops).1 ∧
    (∀ key, ((MemoryOp.run { tier := MemoryTier.create capacity } ops).2.tier.find? key).map Item.slot =
      ((RecencyMap.empty (max capacity 1)).run ops).2.lookup key) ∧
    ((RecencyMap.empty (max capacity 1)).run ops).2.Distinct := by
  obtain ⟨hreplies, hrun⟩ := MemoryOp.run_refines (fresh_refines capacity) ops
  exact ⟨hreplies, fun key => (hrun.agrees.lookup_eq key).symm, hrun.agrees.distinct hrun.wf⟩

end TierCache
