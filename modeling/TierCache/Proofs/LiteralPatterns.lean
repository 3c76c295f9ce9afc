import TierCache.Proofs.GlobLanguage
import TierCache.Proofs.ExpiredEntries

/-!
# Patterns without glob characters

A plain pattern matches only itself (`globMatch_of_plain`), so its single delete stands for the
scan.

Main statement: `plain_pattern_removes_its_key`.
-/

namespace TierCache

namespace Glob

theorem isPattern_eq_false_iff {s : String} :
    isPattern s = false ↔ ∀ c ∈ s.toList, c ≠ '*' ∧ c ≠ '?' ∧ c ≠ '[' ∧ c ≠ '\\' := by
  rw [isPattern, String.any, String.contains_bool_eq]
  simp [and_assoc]

end Glob

namespace GlobToken

-- Characters that open no construct are read one literal token each.
theorem tokenize_of_plain :
    ∀ {cs : List Char}, (∀ c ∈ cs, c ≠ '*' ∧ c ≠ '?' ∧ c ≠ '[' ∧ c ≠ '\\') →
      tokenize cs = cs.map literal
  | [], _ => by simp [tokenize]
  | c :: rest, h => by
    obtain ⟨hstar, hquery, hopen, hslash⟩ := h c List.mem_cons_self
    rw [tokenize.eq_6 c rest hstar hquery (fun _ _ h _ => hslash h) hopen,
      tokenize_of_plain fun c hc => h c (List.mem_cons_of_mem _ hc)]
    rfl

theorem mem_listLang_literals {cs w : List Char} : w ∈ listLang (cs.map literal) ↔ w = cs := by
  induction cs generalizing w with
  | nil => simp [Language.mem_one]
  | cons c cs ih =>
    rw [List.map_cons, mem_listLang_cons_of_ne (by simp)]
    simp only [accepts, beq_iff_eq, ih]
    constructor
    · rintro ⟨c', rest, rfl, rfl, rfl⟩
      rfl
    · rintro rfl
      exact ⟨c, cs, rfl, rfl, rfl⟩

end GlobToken

/-- A pattern without glob characters matches exactly the key it spells. -/
theorem globMatch_of_plain {pattern : String} (hplain : Glob.isPattern pattern = false) (k : String) :
    globMatch pattern k = true ↔ k = pattern := by
  rw [globMatch_iff_mem_lang, GlobToken.tokenize_of_plain (Glob.isPattern_eq_false_iff.1 hplain),
    GlobToken.mem_listLang_literals, String.toList_inj]

theorem globMatch_eq_beq_of_plain {pattern : String} (hplain : Glob.isPattern pattern = false)
    (k : String) : globMatch pattern k = (k == pattern) :=
  Bool.eq_iff_iff.2 ((globMatch_of_plain hplain k).trans beq_iff_eq.symm)

-- On a list of entries, the keys a plain pattern matches are the entries of that one key.
theorem filter_match_of_plain {β : Type} {pattern : String} (hplain : Glob.isPattern pattern = false)
    (l : List (String × β)) :
    (l.filter fun e => globMatch pattern e.1) = l.filter fun e => e.1 == pattern :=
  List.filter_congr fun e _ => globMatch_eq_beq_of_plain hplain e.1

/-- Under distinct keys, the entries of key `k` whose value passes `q` number one or none: one
exactly when the entry stored under `k` passes. -/
theorem length_filter_key {β : Type} {l : List (String × β)} (hl : (l.map (·.1)).Nodup)
    (k : String) (q : β → Bool) :
    (l.filter fun e => e.1 == k && q e.2).length = if (l.lookup k).any q then 1 else 0 := by
  induction l with
  | nil => simp
  | cons e l ih =>
    obtain ⟨k', v⟩ := e
    obtain ⟨hk', hl⟩ := List.nodup_cons.1 hl
    by_cases hk : k = k'
    · subst hk
      -- the head is the one entry of `k`: none of the rest has that key
      have hrest : (l.filter fun e => e.1 == k && q e.2) = [] :=
        List.filter_eq_nil_iff.2 fun e he hmatch => by
          simp only [Bool.and_eq_true, beq_iff_eq] at hmatch
          have hin := List.mem_map_of_mem (f := fun e : String × β => e.1) he
          rw [hmatch.1] at hin
          exact hk' hin
      by_cases hq : q v <;> simp [hq, hrest]
    · have hbeq : (k' == k) = false := beq_false_of_ne (Ne.symm hk)
      simp [hbeq, List.lookup_cons, beq_false_of_ne hk, ih hl]

namespace Backend

/-- Each key is stored at most once, as in the map the store stands for. -/
def OneEach (b : Backend) : Prop := (b.store.map (·.1)).Nodup

theorem OneEach.without {b : Backend} (h : b.OneEach) (k : String) : (b.without k).OneEach :=
  h.sublist ((List.filter_sublist).map _)

-- Removing the keys of some entries one after another keeps the entries of the other keys.
theorem foldl_without_eq (l : List (String × StoredFrame)) (b : Backend) :
    l.foldl (fun b (k, _) => b.without k) b =
      { b with store := b.store.filter fun e => decide (e.1 ∉ l.map (·.1)) } := by
  induction l generalizing b with
  | nil => simp
  | cons e l ih =>
    rw [List.foldl_cons, ih]
    simp only [without, List.filter_filter, List.map_cons, List.mem_cons, not_or]
    congr 2
    funext e'
    by_cases hk : e'.1 = e.1 <;> simp [hk]

theorem OneEach.act {b : Backend} (h : b.OneEach) (c : BackendCall) (now : Nat) :
    (b.act c now).1.OneEach := by
  cases c with
  | get k =>
    simp only [Backend.act]
    split
    · split
      · exact h
      · exact h.without k
    · exact h
  | setex k frame ttl =>
    -- the key is dropped before its new frame is appended
    unfold OneEach
    simp only [Backend.act]
    rw [List.map_append, List.nodup_append]
    refine ⟨h.without k, List.nodup_singleton _, fun x hx y hy => ?_⟩
    obtain ⟨e, he, rfl⟩ := List.mem_map.1 hx
    obtain rfl : y = k := by simpa using hy
    simpa [without] using (List.mem_filter.1 he).2
  | delete k => exact h.without k
  | deleteMatching pattern =>
    simp only [Backend.act, foldl_without_eq]
    exact h.sublist ((List.filter_sublist).map _)
  | ping => exact h

/-- A backend whose store calls have built from an empty one: each call acts on the store
(`act`), and counting the calls or switching the faults leaves it as it is. -/
inductive Reached : Backend → Prop
  | empty {b : Backend} : b.store = [] → Reached b
  | act {b : Backend} (c : BackendCall) (now : Nat) : Reached b → Reached (b.act c now).1
  | keep {b b' : Backend} : Reached b → b'.store = b.store → Reached b'

theorem Reached.oneEach {b : Backend} (h : b.Reached) : b.OneEach := by
  induction h with
  | empty hs => simp [OneEach, hs]
  | act c now _ ih => exact ih.act c now
  | keep _ hs ih =>
    unfold OneEach
    rw [hs]
    exact ih

variable {pattern : String} {b : Backend} {now : Nat}

/-- A scan with a plain pattern leaves the backend exactly as the delete of that key does. -/
theorem deleteMatching_of_plain (hplain : Glob.isPattern pattern = false) :
    (b.act (.deleteMatching pattern) now).1 = (b.act (.delete pattern) now).1 := by
  simp only [Backend.act, foldl_without_eq, filter_match_of_plain hplain]
  congr 1
  refine List.filter_congr fun e he => ?_
  obtain ⟨k, v⟩ := e
  by_cases hk : k = pattern
  · subst hk
    simpa using ⟨v, he⟩
  · simp [hk]

/-- Under one entry per key, the scan with a plain pattern counts one exactly when the delete finds
the key. -/
theorem deleteMatching_reply_of_plain (hplain : Glob.isPattern pattern = false) (hb : b.OneEach) :
    (b.act (.deleteMatching pattern) now).2 =
      .count (if (b.store.lookup pattern).isSome then 1 else 0) := by
  have hcount := length_filter_key hb pattern fun _ => true
  simp only [Bool.and_true, Option.any_true] at hcount
  simp only [Backend.act, filter_match_of_plain hplain, hcount]

end Backend

namespace DistributedTier

variable {pattern : String}

theorem create_reached (threshold recoverySecs timeoutMs : Nat) :
    (create threshold recoverySecs timeoutMs).backend.Reached :=
  .empty rfl

-- A call through the tier either acts on the store or leaves it, whatever the breaker, the delay
-- and the faults do.
theorem reached_guarded {d : DistributedTier} (hd : d.backend.Reached) (m : Metrics) (c : BackendCall)
    (now : Nat) : (d.guarded m c now).1.backend.Reached := by
  simp only [guarded, start]
  obtain ⟨admitted, breaker⟩ := d.breaker.permits now
  cases admitted with
  | false => exact hd
  | true =>
    simp only [Bool.not_true, Bool.false_eq_true, if_false, complete, outcome]
    split
    · exact .keep hd rfl
    · split
      · exact .keep hd rfl
      · exact .act _ _ (.keep hd rfl)

theorem reached_set {d : DistributedTier} (hd : d.backend.Reached) (m : Metrics) (key : String)
    (frame : ByteArray) (ttlMs now : Nat) : (d.set m key frame ttlMs now).1.backend.Reached := by
  have h := reached_guarded hd m (.setex key frame ttlMs) now
  unfold set expect
  generalize d.guarded m (.setex key frame ttlMs) now = g at h ⊢
  obtain ⟨d', m', t', r⟩ := g
  exact h

/-- A plain pattern skips the scan: the single delete the tier sends instead leaves the same store,
breaker, counters and clock as the scan would. On a store that calls have built it answers a count
exactly when the scan would answer, with the count the scan would give. -/
theorem deleteMatching_agrees_with_scan (hplain : Glob.isPattern pattern = false)
    (d : DistributedTier) (m : Metrics) (now : Nat) :
    (d.deleteMatching m pattern now).1.backend.store =
        (d.guarded m (.deleteMatching pattern) now).1.backend.store ∧
      (d.deleteMatching m pattern now).1.breaker = (d.guarded m (.deleteMatching pattern) now).1.breaker ∧
      (d.deleteMatching m pattern now).2.1 = (d.guarded m (.deleteMatching pattern) now).2.1 ∧
      (d.deleteMatching m pattern now).2.2.1 = (d.guarded m (.deleteMatching pattern) now).2.2.1 ∧
      (d.backend.Reached → (d.deleteMatching m pattern now).2.2.2.toOption.map BackendReply.count =
        (d.guarded m (.deleteMatching pattern) now).2.2.2.toOption) := by
  -- the breaker's verdict, the wait and the fault do not depend on the call; only the store's
  -- answer does
  simp only [deleteMatching, hplain, Bool.false_eq_true, if_false, expect, guarded, start]
  obtain ⟨admitted, breaker⟩ := d.breaker.permits now
  cases admitted with
  | false => simp [Except.map, Except.toOption]
  | true =>
    simp only [Bool.not_true, Bool.false_eq_true, if_false, complete, outcome]
    split
    · simp [settle, CacheError.isTransient, Except.map, Except.toOption]
    · split
      · simp [settle, Except.map, Except.toOption]
      · simp only [settle, true_and]
        constructor
        · rw [Backend.deleteMatching_of_plain hplain]
          rfl
        · intro hd
          rw [Backend.deleteMatching_reply_of_plain hplain (by exact hd.oneEach)]
          simp [Backend.act, Except.map, Except.toOption]

end DistributedTier

namespace MemoryTier

variable {pattern : String} {t : MemoryTier}

theorem drop_of_find?_none {key : String} (h : t.find? key = none) : t.drop key = t := by
  simp [drop, h]

-- Dropping a key again changes nothing.
theorem foldl_drop_same (t : MemoryTier) (key : String) :
    ∀ {l : List (String × Item)}, (∀ e ∈ l, e.1 = key) →
      l.foldl (fun t (k, _) => t.drop k) (t.drop key) = t.drop key
  | [], _ => rfl
  | (k, v) :: l, h => by
    obtain rfl : k = key := h (k, v) List.mem_cons_self
    simp only [List.foldl_cons]
    rw [drop_of_find?_none (find?_drop_self t k)]
    exact foldl_drop_same t k fun e' he' => h e' (List.mem_cons_of_mem _ he')

/-- A removal by a plain pattern leaves the tier as dropping that one key does, whatever the
tier holds. -/
theorem removeMatching_of_plain (hplain : Glob.isPattern pattern = false) (t : MemoryTier)
    (m : Metrics) (now : Nat) : (t.removeMatching m pattern now).2.1 = t.drop pattern := by
  unfold removeMatching
  dsimp only
  rw [filter_match_of_plain hplain]
  split
  · next hempty =>
    -- no entry has the key, so there is nothing to drop
    refine (drop_of_find?_none (List.lookup_eq_none_iff.2 fun e he => ?_)).symm
    have hnot := List.filter_eq_nil_iff.1 (List.isEmpty_iff.1 hempty) e he
    simp only [beq_iff_eq] at hnot
    exact bne_iff_ne.2 (Ne.symm hnot)
  · next hne =>
    obtain ⟨e, l, hl⟩ := List.exists_cons_of_ne_nil (l := t.items.filter fun e => e.1 == pattern)
      fun h => hne (by rw [h]; rfl)
    have hkeys : ∀ e' ∈ e :: l, e'.1 = pattern := fun e' he' => by
      rw [← hl] at he'
      simpa using (List.mem_filter.1 he').2
    rw [hl]
    obtain ⟨k, v⟩ := e
    obtain rfl : k = pattern := hkeys (k, v) List.mem_cons_self
    simp only [List.foldl_cons]
    exact foldl_drop_same t k fun e' he' => hkeys e' (List.mem_cons_of_mem _ he')

/-- On a well-formed tier, a removal by a plain pattern counts one exactly when the key holds a
live entry. -/
theorem removeMatching_count_of_plain (hplain : Glob.isPattern pattern = false) (h : t.Wf)
    (m : Metrics) (now : Nat) :
    (t.removeMatching m pattern now).1 = if t.contains pattern now then 1 else 0 := by
  rw [removeMatching_count, liveMatches]
  have hmatch : (t.items.filter fun e => globMatch pattern e.1 && !e.2.expiredAt now) =
      t.items.filter fun e => e.1 == pattern && !e.2.expiredAt now :=
    List.filter_congr fun e _ => by rw [globMatch_eq_beq_of_plain hplain]
  rw [hmatch, length_filter_key h.keys_nodup pattern fun i => !i.expiredAt now]
  simp [contains, peek, find?, Option.isSome_filter]

end MemoryTier

/-- A pattern without glob characters stands for its one key. It matches exactly that key. The
distributed tier's single delete in place of a scan leaves the store, the breaker, the counters
and the clock as the scan would, and, on a store that calls have built, answers the scan's
count. The memory tier's removal by it drops exactly the entry of that key, and on a well-formed
tier counts it when it is live. -/
theorem plain_pattern_removes_its_key {pattern : String} (hplain : Glob.isPattern pattern = false) :
    (∀ k, globMatch pattern k = true ↔ k = pattern) ∧
    (∀ (d : DistributedTier) (m : Metrics) (now : Nat),
      (d.deleteMatching m pattern now).1.backend.store =
          (d.guarded m (.deleteMatching pattern) now).1.backend.store ∧
        (d.deleteMatching m pattern now).1.breaker =
          (d.guarded m (.deleteMatching pattern) now).1.breaker ∧
        (d.deleteMatching m pattern now).2.1 = (d.guarded m (.deleteMatching pattern) now).2.1 ∧
        (d.deleteMatching m pattern now).2.2.1 = (d.guarded m (.deleteMatching pattern) now).2.2.1 ∧
        (d.backend.Reached → (d.deleteMatching m pattern now).2.2.2.toOption.map BackendReply.count =
          (d.guarded m (.deleteMatching pattern) now).2.2.2.toOption)) ∧
    (∀ (t : MemoryTier) (m : Metrics) (now : Nat),
      (t.removeMatching m pattern now).2.1 = t.drop pattern ∧
        (t.Wf → (t.removeMatching m pattern now).1 = if t.contains pattern now then 1 else 0)) :=
  ⟨globMatch_of_plain hplain, DistributedTier.deleteMatching_agrees_with_scan hplain,
    fun t m now => ⟨MemoryTier.removeMatching_of_plain hplain t m now,
      fun h => MemoryTier.removeMatching_count_of_plain hplain h m now⟩⟩

/-- A tier whose backend has stored `users:active` and then `users:active2`. -/
def twoUsersTier : DistributedTier :=
  let d := ((DistributedTier.create 2 10 100).set {} "users:active" "v".toUTF8 60000 0).1
  (d.set {} "users:active2" "v".toUTF8 60000 0).1

/-- A memory tier that has stored `users:active` and then `users:active2`. -/
def twoUsersMemory : MemoryTier :=
  let t := ((MemoryTier.create 10).set {} "users:active" "v".toUTF8 60000 .memory 0).2.1
  (t.set {} "users:active2" "v".toUTF8 60000 .memory 0).2.1

/-- Removing `users:active` by pattern from tiers that also hold `users:active2`. -/
theorem active_users_removed_as_one_key :
    twoUsersTier.backend.store.map (·.1) = ["users:active", "users:active2"] ∧
    twoUsersMemory.keys = ["users:active", "users:active2"] ∧
    Glob.isPattern "users:active" = false ∧ twoUsersTier.backend.Reached ∧ twoUsersMemory.Wf ∧
      ((twoUsersTier.deleteMatching {} "users:active" 0).1.backend.store =
          (twoUsersTier.guarded {} (.deleteMatching "users:active") 0).1.backend.store ∧
        (twoUsersTier.deleteMatching {} "users:active" 0).2.2.2.toOption.map BackendReply.count =
          (twoUsersTier.guarded {} (.deleteMatching "users:active") 0).2.2.2.toOption) ∧
      (twoUsersMemory.removeMatching {} "users:active" 0).2.1 = twoUsersMemory.drop "users:active" ∧
      (twoUsersMemory.removeMatching {} "users:active" 0).1 =
        if twoUsersMemory.contains "users:active" 0 then 1 else 0 := by
  have hplain : Glob.isPattern "users:active" = false := Glob.isPattern_eq_false_iff.2 (by simp)
  have hreached : twoUsersTier.backend.Reached :=
    DistributedTier.reached_set (DistributedTier.reached_set
      (DistributedTier.create_reached 2 10 100) _ _ _ _ _) _ _ _ _ _
  have hwf : twoUsersMemory.Wf := ((MemoryTier.create_wf 10).set _ _ _ _ _ _).set _ _ _ _ _ _
  obtain ⟨-, htier, hmem⟩ := plain_pattern_removes_its_key hplain
  obtain ⟨hstore, -, -, -, hcount⟩ := htier twoUsersTier {} 0
  obtain ⟨hdrop, hlive⟩ := hmem twoUsersMemory {} 0
  exact ⟨by decide +kernel, by decide +kernel, hplain, hreached, hwf, ⟨hstore, hcount hreached⟩, hdrop,
    hlive hwf⟩

end TierCache
