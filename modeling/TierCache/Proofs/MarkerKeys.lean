import TierCache.Proofs.CacheTraffic
import TierCache.Proofs.WarmingInterleaved

/-!
# The keys a program adds to the cache

`Act.Adds ok` is a program each change of which adds only keys `ok` allows, one lemma per
operation.
-/

namespace TierCache

/-! ## Markers -/

/-- Whether a key is a pattern's marker, that is, starts with the marker prefix. -/
def IsMarker (key : String) : Prop := ∃ d, key = markerKey d

theorem markerKey_injective : Function.Injective markerKey :=
  fun _ _ h => (String.append_right_inj markerPrefix).1 h

theorem isMarker_markerKey (d : String) : IsMarker (markerKey d) := ⟨d, rfl⟩

/-- A key whose first letter is not the marker prefix's is no marker. -/
theorem not_isMarker_of_head {key : String} (hkey : key.toList.head? ≠ some 'w') : ¬ IsMarker key := by
  rintro ⟨d, rfl⟩
  exact hkey (by simp [markerKey, markerPrefix, String.toList_append])

/-- Whether a key is no marker, or a marker that `o` lists. -/
def Known (o : List String) (key : String) : Prop := IsMarker key → key ∈ o

variable {o o' : List String} {key : String}

theorem known_of_not_isMarker (h : ¬ IsMarker key) : Known o key := fun hm => (h hm).elim

theorem Known.mono (h : Known o key) (hsub : o ⊆ o') : Known o' key := fun hm => hsub (h hm)

/-- The keys a refresh writes are no markers: a script lists none, and the standard refreshes
write the active users, records and users' keys. -/
def Refresh.SparesMarkers : Refresh → Prop
  | .scripted s => ∀ k ∈ s.setKeys, ¬ IsMarker k
  | _ => True

/-- A write-behind job of a key that is no marker. -/
def Job.BehindPlain : Job → Prop
  | .writeBehind key .. => ¬ IsMarker key
  | _ => False

/-! ## The keys the cache holds -/

namespace TieredCache

/-- The keys of the frames the distributed tier stores. -/
def storedKeys (c : TieredCache) : List String := ((c.distributed.map (·.backend.store)).getD []).map Prod.fst

/-- The keys the cache holds, in memory and in the distributed tier. -/
def keys (c : TieredCache) : List String := c.memory.keys ++ c.storedKeys

variable {c c' : TieredCache} {k : String}

theorem keys_of_still (h : Still c c') : c'.keys = c.keys := by
  obtain ⟨hitems, hstore, -⟩ := h
  simp only [keys, storedKeys, MemoryTier.keys, hitems, hstore]

-- A change of the memory tier that keeps only items it had keeps only keys the cache had.
theorem mem_keys_onMemory {α : Type} {f : MemoryTier → Metrics → α × MemoryTier × Metrics}
    (hf : MemoryTier.ItemsFrom c.memory (f c.memory c.metrics).2.1) (hk : k ∈ (c.onMemory f).2.keys) :
    k ∈ c.keys := by
  simp only [keys, onMemory, List.mem_append] at hk ⊢
  rcases hk with hk | hk
  · obtain ⟨e, he, rfl⟩ := List.mem_map.1 hk
    obtain ⟨e₀, he₀, hkey, -⟩ := hf e he
    exact .inl (List.mem_map.2 ⟨e₀, he₀, hkey.symm⟩)
  · exact .inr hk

theorem mem_keys_remember {v : ByteArray} {ttl : Nat} {origin : Origin} {now : Nat}
    (hk : k ∈ (c.remember key v ttl origin now).keys) : k ∈ c.keys ∨ k = key := by
  simp only [keys, remember, onMemory, List.mem_append] at hk
  rcases hk with hk | hk
  · obtain ⟨e, he, rfl⟩ := List.mem_map.1 hk
    rcases MemoryTier.mem_set_items he with ⟨e₀, he₀, hkey, -⟩ | ⟨hkey, -⟩
    · exact .inl (List.mem_append_left _ (List.mem_map.2 ⟨e₀, he₀, hkey.symm⟩))
    · exact .inr hkey
  · exact .inl (List.mem_append_right _ hk)

end TieredCache

theorem keys_startCall (call : BackendCall) (h : Host) :
    (Act.startCall call h).2.cache.keys = h.cache.keys := by
  unfold Act.startCall
  split
  · rfl
  · next d hd => simp [TieredCache.keys, TieredCache.storedKeys, hd]

-- An admitted call ends with the keys it found, or with the key it stores.
theorem mem_keys_endCall {a : DistributedTier.Admitted} {h : Host} {k : String}
    (hk : k ∈ (Act.endCall a h).2.cache.keys) : k ∈ h.cache.keys ∨ ∃ f t, a.call = .setex k f t := by
  unfold Act.endCall at hk
  split at hk
  · exact .inl hk
  · next d hd =>
    simp only [TieredCache.keys, TieredCache.storedKeys, Option.map_some, Option.getD_some,
      List.mem_append, List.mem_map] at hk
    rcases hk with hk | ⟨e, he, rfl⟩
    · exact .inl (List.mem_append_left _ hk)
    · rcases DistributedTier.complete_store d h.cache.metrics a h.clock with hsame | hact
      · rw [hsame] at he
        exact .inl (List.mem_append_right _ (by simp [TieredCache.storedKeys, hd]; exact ⟨_, he⟩))
      · rw [hact] at he
        rcases Backend.mem_act_store he with hold | ⟨key, f, t, hcall, hkey, -⟩
        · exact .inl (List.mem_append_right _ (by simp [TieredCache.storedKeys, hd]; exact ⟨_, hold⟩))
        · exact .inr ⟨f, t, hkey ▸ hcall⟩

theorem MemoryTier.mem_keys_of_peek {t : MemoryTier} {key : String} {now : Nat} {item : Item}
    (h : t.peek key now = some item) : key ∈ t.keys := by
  unfold MemoryTier.peek at h
  obtain ⟨hfind, -⟩ := Option.filter_eq_some_iff.1 h
  exact List.mem_map.2 ⟨_, MemoryTier.mem_of_find? hfind, rfl⟩

-- A read of the distributed tier that answers a frame found its key stored.
theorem key_mem_of_endCall_frame {a : DistributedTier.Admitted} {h : Host} {key : String}
    {f : ByteArray} (hcall : a.call = .get key) (hr : (Act.endCall a h).1 = .ok (.frame (some f))) :
    key ∈ h.cache.keys := by
  unfold Act.endCall at hr
  split at hr
  · cases hr
  · next d hd =>
    obtain ⟨-, hreply⟩ := DistributedTier.complete_frame hr
    rw [hcall] at hreply
    obtain ⟨⟨k, sf⟩, he, hkey, -⟩ := Backend.act_get_frame hreply
    simp only at hkey
    subst hkey
    rcases Backend.mem_act_store he with hold | ⟨_, _, _, hset, -⟩
    · exact List.mem_append_right _ (by simp [TieredCache.storedKeys, hd]; exact ⟨sf, hold⟩)
    · cases hset

/-! ## Changes that add keys of one kind -/

namespace Host

/-- A change that keeps the warming rules, adds to the cache only keys `ok` allows, and asks only
for writes behind keys that are not markers. -/
structure Adds (ok : String → Prop) (h h' : Host) : Prop where
  registry : h'.warmer.map (·.registry) = h.warmer.map (·.registry)
  keys : ∀ k ∈ h'.cache.keys, k ∈ h.cache.keys ∨ ok k
  jobs : ∀ j ∈ h'.requested, j ∈ h.requested ∨ j.BehindPlain

variable {ok ok' : String → Prop} {h h' : Host}

theorem Adds.mono (hA : Adds ok h h') (hok : ∀ k, ok k → ok' k) : Adds ok' h h' :=
  ⟨hA.registry, fun k hk => (hA.keys k hk).imp_right (hok k), hA.jobs⟩

theorem Adds.of_eq (hw : h'.warmer = h.warmer) (hc : h'.cache.keys = h.cache.keys)
    (hr : h'.requested = h.requested) : Adds ok h h' :=
  ⟨by rw [hw], fun k hk => .inl (hc ▸ hk), fun j hj => .inl (hr ▸ hj)⟩

theorem Adds.of_cache {c : TieredCache} (hkeys : ∀ k ∈ c.keys, k ∈ h.cache.keys ∨ ok k) :
    Adds ok h { h with cache := c } :=
  ⟨rfl, hkeys, fun _ hj => .inl hj⟩

theorem Adds.of_warmer {f : Warmer → Warmer} (hf : ∀ w, (f w).registry = w.registry) :
    Adds ok h { h with warmer := h.warmer.map f } :=
  ⟨by cases h.warmer <;> simp [hf], fun _ hk => .inl hk, fun _ hj => .inl hj⟩

theorem adds_startCall (call : BackendCall) (h : Host) : Adds ok h (Act.startCall call h).2 :=
  .of_eq (by unfold Act.startCall; split <;> rfl) (keys_startCall call h)
    (by unfold Act.startCall; split <;> rfl)

-- The end of a call adds the key it stores, if any.
theorem adds_endCall (a : DistributedTier.Admitted) (h : Host)
    (hok : ∀ k f t, a.call = .setex k f t → ok k) : Adds ok h (Act.endCall a h).2 := by
  have hreq : (Act.endCall a h).2.requested = h.requested := by unfold Act.endCall; split <;> rfl
  refine ⟨by unfold Act.endCall; split <;> rfl, fun k hk => ?_, fun j hj => .inl (hreq ▸ hj)⟩
  rcases mem_keys_endCall hk with hold | ⟨f, t, hset⟩
  · exact .inl hold
  · exact .inr (hok k f t hset)

end Host

namespace Act

variable {α β γ : Type} {ok : String → Prop}

/-- From any state, every change the program makes keeps the warming rules, adds to the cache
only keys `ok` allows, and asks only for writes behind keys that are not markers. -/
def Adds (ok : String → Prop) (f : Act α) : Prop := Stays (Host.Adds ok) f

theorem Adds.bind {f : Act α} {g : α → Act β} (hf : Adds ok f) (hg : ∀ a, Adds ok (g a)) :
    Adds ok (f >>= g) :=
  Stays.bind hf hg

theorem adds_pure (a : α) : Adds ok (pure a : Act α) := stays_pure a

theorem Adds.mono {ok' : String → Prop} {f : Act α} (hf : Adds ok f) (hok : ∀ k, ok k → ok' k) :
    Adds ok' f :=
  fun h => (hf h).mono fun _ _ hA => hA.mono hok

theorem Adds.forIn {xs : List γ} {b : β} {f : γ → β → Act (ForInStep β)}
    (hf : ∀ x ∈ xs, ∀ b, Adds ok (f x b)) : Adds ok (forIn xs b f) :=
  Stage.Within.forIn hf

theorem adds_look (f : Host → α) : Adds ok (look f) := stays_look f

theorem adds_now : Adds ok Act.now := Stays.read fun _ => stays_pure _

theorem adds_changeCache_still {f : Nat → TieredCache → TieredCache}
    (hf : ∀ now c, TieredCache.Still c (f now c)) : Adds ok (changeCache f) :=
  stays_modify fun _ => .of_cache fun _ hk => .inl (TieredCache.keys_of_still (hf _ _) ▸ hk)

theorem adds_count (f : Metrics → Metrics) : Adds ok (changeCache fun _ c => c.count f) :=
  adds_changeCache_still fun _ c => TieredCache.still_count c f

theorem adds_onMemory {F : Nat → MemoryTier → Metrics → α × MemoryTier × Metrics}
    (hF : ∀ now m k, MemoryTier.ItemsFrom m (F now m k).2.1) :
    Adds ok (onCache fun now c => c.onMemory (F now)) :=
  stays_modifyGet fun _ => .of_cache fun _ hk => .inl (TieredCache.mem_keys_onMemory (hF _ _ _) hk)

theorem adds_changeMemory {F : Nat → MemoryTier → Metrics → α × MemoryTier × Metrics}
    (hF : ∀ now m k, MemoryTier.ItemsFrom m (F now m k).2.1) :
    Adds ok (changeCache fun now c => (c.onMemory (F now)).2) :=
  stays_modify fun _ => .of_cache fun _ hk => .inl (TieredCache.mem_keys_onMemory (hF _ _ _) hk)

theorem adds_changeWarmer {f : Warmer → Warmer} (hf : ∀ w, (f w).registry = w.registry) :
    Adds ok (changeWarmer f) :=
  stays_modify fun _ => .of_warmer hf

theorem adds_onSource (f : DataSource → α × DataSource) : Adds ok (onSource f) :=
  stays_modifyGet fun _ => .of_eq rfl rfl rfl

theorem adds_halt [Inhabited α] (msg : String) : Adds ok (halt msg : Act α) :=
  fun _ => .write (.of_eq rfl rfl rfl) (Stays.wait (stays_pure _) _)

/-! ## The tiers -/

/-- A change and its answer, and then a program given the answer: within `P` when the change is
and the program is from the state the change leaves. -/
theorem Stays.modifyGet_bind {P : Host → Host → Prop} (F : Host → α × Host) {k : α → Act β}
    (hF : ∀ h, P h (F h).2) (hk : ∀ h, Stage.Within Host.stage P (Host.stage.takeJobs (F h).2).2 (k (F h).1)) :
    Stays P (Fiber.modifyGet F >>= k) :=
  fun h => .read (.write (hF h) (hk h))

-- A call to the distributed tier stays within `P` when its start does, and its end does for the
-- call the start admitted.
theorem stays_callTier_admitted {P : Host → Host → Prop} {call : BackendCall}
    (hstart : ∀ h, P h (startCall call h).2)
    (hend : ∀ a, a.call = call → ∀ h, P h (endCall a h).2) : Stays P (callTier call) := by
  unfold callTier
  refine Stays.modifyGet_bind (startCall call) hstart fun h => ?_
  dsimp only
  split
  · exact .done
  · next a ha =>
    have hfinish : Stays P (Fiber.modifyGet (endCall a)) := stays_modifyGet (hend a (startCall_call ha))
    split
    · exact ((stays_sleep _).bind fun _ => hfinish) _
    · exact hfinish _

theorem adds_callTier {call : BackendCall} (hok : ∀ k f t, call = .setex k f t → ok k) :
    Adds ok (callTier call) :=
  stays_callTier_admitted (fun h => Host.adds_startCall call h)
    fun a hcall h => Host.adds_endCall a h fun k f t hset => hok k f t (hcall ▸ hset)

theorem adds_tierGet (key : String) : Adds ok (tierGet key) :=
  (adds_callTier fun _ _ _ h => nomatch h).bind fun _ => adds_pure _

theorem adds_tierSet {key : String} (hkey : ok key) (frame : ByteArray) (ttlMs : Nat) :
    Adds ok (tierSet key frame ttlMs) :=
  (adds_callTier fun _ _ _ h => by cases h; exact hkey).bind fun _ => adds_pure _

theorem adds_tierDelete (key : String) : Adds ok (tierDelete key) :=
  (adds_callTier fun _ _ _ h => nomatch h).bind fun _ => adds_pure _

theorem adds_tierDeleteMatching (pattern : String) : Adds ok (tierDeleteMatching pattern) := by
  unfold tierDeleteMatching
  split <;> exact (adds_callTier fun _ _ _ h => nomatch h).bind fun _ => adds_pure _

theorem adds_peekRaw (key : String) : Adds ok (peekRaw key) := by
  refine (adds_look _).bind fun found => ?_
  split
  · exact adds_pure _
  · refine (adds_look _).bind fun memoryOnly => ?_
    split
    · exact adds_pure _
    · refine (adds_tierGet key).bind fun r => ?_
      split
      · exact adds_look _
      · exact adds_pure _

theorem adds_contains (key : String) : Adds ok (contains key) := by
  refine (adds_look _).bind fun here => ?_
  split
  · exact adds_pure _
  · refine (adds_look _).bind fun memoryOnly => ?_
    split
    · exact adds_pure _
    · exact (adds_tierGet key).bind fun r => by split <;> exact adds_pure _

-- Storing a value in memory adds its key.
theorem adds_changeRemember {key : String} (hkey : ok key) {f : Nat → TieredCache → TieredCache}
    (hf : ∀ now c, ∀ k ∈ (f now c).keys, k ∈ c.keys ∨ k = key) : Adds ok (changeCache f) :=
  stays_modify fun h => .of_cache fun k hk => by
    rcases hf _ _ k hk with hk | rfl
    · exact .inl hk
    · exact .inr hkey

theorem adds_remember {key : String} (hkey : ok key) (v : ByteArray) (ttl : TieredCache → Nat)
    (origin : Origin) (f : Metrics → Metrics) :
    Adds ok (changeCache fun now c => (c.remember key v (ttl c) origin now).count f) :=
  adds_changeRemember hkey fun _ _ k hk =>
    TieredCache.mem_keys_remember (by rwa [TieredCache.keys_of_still (TieredCache.still_count _ _)] at hk)

theorem adds_lookup {key : String} (hkey : ok key) : Adds ok (lookup key) := by
  refine (adds_onMemory fun now m k => MemoryTier.itemsFrom_get m k key now).bind fun found => ?_
  split
  · exact (adds_count _).bind fun _ => adds_pure _
  · refine (adds_look _).bind fun memoryOnly => ?_
    split
    · exact adds_pure _
    · refine (adds_tierGet key).bind fun r => ?_
      split
      · refine (adds_look _).bind fun decoded => ?_
        split
        · exact (adds_remember hkey _ (·.defaultTtlMs) _ _).bind fun _ => adds_pure _
        · exact (adds_count _).bind fun _ => adds_pure _
      · exact adds_pure _

theorem adds_getRaw {key : String} (hkey : ok key) : Adds ok (getRaw key) := by
  refine (adds_lookup hkey).bind fun found => ?_
  dsimp only
  split
  · exact (adds_count _).bind fun _ => (adds_count _).bind fun _ => adds_pure _
  · exact (adds_count _).bind fun _ => adds_pure _

theorem adds_readAs (sh : Shape) (found : Option ByteArray) : Adds ok (readAs sh found) := by
  unfold readAs
  split
  · exact adds_pure _
  · split
    · exact adds_pure _
    · exact (adds_count _).bind fun _ => adds_pure _

theorem adds_writeThrough {key : String} (hkey : ok key) (v : ByteArray) (ttlMs : Nat) :
    Adds ok (writeThrough key v ttlMs) := by
  refine (adds_look _).bind fun memoryOnly => ?_
  split
  · exact adds_pure _
  · exact (adds_look _).bind fun _ => (adds_tierSet hkey _ _).bind fun _ => adds_pure _

-- A write-behind write asks for the job that writes its key behind.
theorem adds_scheduleWrite {key : String} (hplain : ¬ IsMarker key) (v : ByteArray) (ttlMs : Nat) :
    Adds ok (scheduleWrite key v ttlMs) := by
  refine (adds_look _).bind fun memoryOnly => ?_
  split
  · exact adds_pure _
  · refine Stays.bind (stays_modifyGet fun h => .of_cache fun _ hk => .inl hk) fun ft => ?_
    refine stays_modify fun h => ⟨rfl, fun _ hk => .inl hk, fun j hj => ?_⟩
    rcases List.mem_append.1 hj with hj | hj
    · exact .inl hj
    · rw [List.mem_singleton.1 hj]
      exact .inr hplain

theorem adds_setRaw {key : String} {strategy : WriteStrategy} (hkey : ok key)
    (hplain : strategy = .writeBehind → ¬ IsMarker key) (v : ByteArray) (ttlMs : Option Nat) :
    Adds ok (setRaw key v ttlMs strategy) := by
  unfold setRaw
  refine (adds_look _).bind fun ttl => ?_
  extract_lets remember finish
  have hremember : Adds ok remember :=
    adds_changeRemember hkey fun _ _ _ hk => TieredCache.mem_keys_remember hk
  -- once the tiers are written: the write is counted, and published if it worked
  have hfinish : ∀ ok', Adds ok (finish ok') := by
    intro ok'
    refine (adds_count _).bind fun _ => ?_
    split
    · exact (adds_changeCache_still fun _ c => (TieredCache.still_publish c _).trans
        (TieredCache.still_offerTrigger _ _)).bind fun _ => adds_pure _
    · exact adds_pure _
  split
  · exact hremember.bind fun _ => (adds_writeThrough hkey _ _).bind hfinish
  · exact (adds_writeThrough hkey _ _).bind fun _ => hremember.bind fun _ => (adds_pure _).bind hfinish
  · exact hremember.bind fun _ => (adds_scheduleWrite (hplain rfl) _ _).bind fun _ =>
      (adds_pure _).bind hfinish

theorem adds_set {key : String} {strategy : WriteStrategy} (hkey : ok key)
    (hplain : strategy = .writeBehind → ¬ IsMarker key)
    (serialized : Except CacheError ByteArray) (ttlMs : Option Nat) :
    Adds ok (set key serialized ttlMs strategy) := by
  unfold set
  split
  · exact (adds_count _).bind fun _ => adds_pure _
  · exact adds_setRaw hkey hplain _ _

theorem adds_setJson_cacheAside {key : String} (hkey : ok key) (v : Json) (ttlMs : Option Nat) :
    Adds ok (setJson key v ttlMs .cacheAside) :=
  adds_setRaw hkey (fun h => by cases h) _ _

theorem adds_writeBehindJob {key : String} (hkey : ok key) (frame : ByteArray) (ttlMs ticket : Nat) :
    Adds ok (writeBehindJob key frame ttlMs ticket) := by
  have hwb : ∀ f : TieredCache → WriteBehind, Adds ok (changeCache fun _ c => { c with writeBehind := f c }) :=
    fun f => adds_changeCache_still fun _ c => TieredCache.still_writeBehind c _
  refine (stays_waitUntil _).bind fun _ => (hwb _).bind fun _ => ?_
  refine (adds_tierSet hkey _ _).bind fun r => (hwb _).bind fun _ => ?_
  extract_lets finish
  split
  · exact (adds_count _).bind fun _ => hwb _
  · exact hwb _

theorem adds_delete (key : String) : Adds ok (delete key) := by
  unfold delete
  refine (adds_changeMemory fun _ m k => MemoryTier.itemsFrom_delete m k key).bind fun _ => ?_
  refine (adds_look _).bind fun memoryOnly => ?_
  extract_lets finish
  have hfinish : ∀ ok', Adds ok (finish ok') := fun _ =>
    (adds_changeCache_still fun _ c => (TieredCache.still_count c _).trans
      (TieredCache.still_publish _ _)).bind fun _ => adds_pure _
  split
  · exact (adds_pure _).bind hfinish
  · exact (adds_tierDelete key).bind fun _ => (adds_pure _).bind hfinish

theorem adds_invalidate (pattern : String) : Adds ok (invalidate pattern) := by
  unfold invalidate
  refine (adds_onMemory fun now m k => MemoryTier.itemsFrom_removeMatching m k pattern now).bind
    fun here => ?_
  refine (adds_look _).bind fun memoryOnly => ?_
  extract_lets finish
  have hfinish : ∀ there, Adds ok (finish there) := fun _ =>
    (adds_changeCache_still fun _ c => TieredCache.still_publish c _).bind fun _ => adds_pure _
  split
  · exact (adds_pure _).bind hfinish
  · exact (adds_tierDeleteMatching pattern).bind fun _ => (adds_pure _).bind hfinish

theorem adds_sweep : Adds ok sweep :=
  adds_onMemory fun now m k => MemoryTier.itemsFrom_sweep m k now

theorem adds_clearLocal : Adds ok clearLocal :=
  adds_changeMemory fun _ m k => MemoryTier.itemsFrom_clear m k

theorem adds_flush : Adds ok flush := stays_waitUntil _

/-! ## Warming -/

theorem adds_markWarmed (pattern : String) (time : Instant) :
    Adds (· = markerKey pattern) (markWarmed pattern time) := by
  refine (adds_look _).bind fun _ => (adds_setJson_cacheAside ?_ _ _).bind fun _ => adds_pure _
  rfl

theorem adds_lastWarmed (pattern : String) : Adds ok (lastWarmed pattern) :=
  (adds_peekRaw _).bind fun _ => adds_pure _

theorem adds_query : Adds ok query := adds_onSource _

theorem adds_evaluate (c : Condition) (now : Instant) : Adds ok (evaluate c now) := by
  refine (adds_look _).bind fun result => ?_
  split
  · exact adds_halt _
  · exact (stays_modify fun _ => .of_eq rfl rfl rfl).bind fun _ => adds_pure _

theorem adds_claim (pattern : String) : Adds ok (claim pattern) := by
  refine stays_modifyGet fun h => ?_
  split
  · next w hw =>
    split
    · exact .of_eq rfl rfl rfl
    · exact ⟨by simp [hw], fun _ hk => .inl hk, fun _ hj => .inl hj⟩
  · exact .of_eq rfl rfl rfl

theorem adds_takePermit (pattern : String) : Adds ok (takePermit pattern) := by
  refine stays_modifyGet fun h => ?_
  split
  · exact .of_eq rfl rfl rfl
  · next w hw =>
    split
    · exact ⟨by simp [hw, Warmer.release, Warmer.count], fun _ hk => .inl hk, fun _ hj => .inl hj⟩
    · exact ⟨by simp [hw], fun _ hk => .inl hk, fun _ hj => .inl hj⟩

theorem adds_drain : Adds ok drain := by
  refine Stays.bind (stays_modifyGet fun h => ?_) fun _ => stays_waitUntil _
  split
  · next w hw => exact ⟨by simp [hw], fun _ hk => .inl hk, fun _ hj => .inl hj⟩
  · exact .of_eq rfl rfl rfl

theorem adds_activeUsers (now : Instant) : Adds ok (activeUsers now) := by
  unfold activeUsers
  split
  · exact adds_pure _
  · refine adds_query.bind fun answer => ?_
    split
    · exact adds_pure _
    · exact (adds_look _).bind fun _ => adds_pure _

/-- Warming a user writes the user's profile, applications and recommendations. -/
theorem adds_warmUser (user : String) : Adds (¬ IsMarker ·) (warmUser user) := by
  have huser : ∀ part, ¬ IsMarker ("user:" ++ user ++ ":" ++ part) :=
    fun _ => not_isMarker_of_head (by simp [String.toList_append])
  refine adds_query.bind fun answer => ?_
  split
  · exact adds_pure _
  · refine (adds_look _).bind fun snapshot => ?_
    split
    · exact adds_pure _
    · exact (adds_setJson_cacheAside (huser _) _ _).bind fun _ =>
        (adds_setJson_cacheAside (huser _) _ _).bind fun _ =>
        (adds_setJson_cacheAside (huser _) _ _).bind fun _ => adds_pure _

theorem adds_warmListedUser (user : String) : Adds (¬ IsMarker ·) (warmListedUser user) :=
  (adds_warmUser user).bind fun r => by split <;> exact adds_pure _

theorem adds_runScript {r : Rule} {s : Script} (hs : ∀ k ∈ s.setKeys, ¬ IsMarker k) (now : Instant)
    (trigger : Option String) : Adds (¬ IsMarker ·) (runScript r s now trigger) := by
  refine Adds.bind (adds_changeWarmer fun w => ?_) fun _ => ?_
  · rfl
  split
  · exact adds_pure _
  · refine (stays_sleep _).bind fun _ => ?_
    refine (Adds.forIn fun k hk _ => ?_).bind fun _ => ?_
    · exact (adds_setJson_cacheAside (hs k hk) _ _).bind fun _ => adds_pure _
    · split <;> exact adds_pure _

/-- A rule's refresh adds no marker to the cache, unless its script lists one. -/
theorem adds_runRule {r : Rule} (hr : r.refresh.SparesMarkers) (now : Instant) (trigger : Option String) :
    Adds (¬ IsMarker ·) (runRule r now trigger) := by
  have husers : ¬ IsMarker activeUsersKey := not_isMarker_of_head (by simp [activeUsersKey])
  unfold runRule
  split
  · next s hs =>
    rw [hs] at hr
    exact adds_runScript hr _ _
  · refine (adds_activeUsers now).bind fun users => ?_
    split
    · exact adds_pure _
    · exact adds_pure _
    · exact (adds_setJson_cacheAside husers _ _).bind fun _ => adds_pure _
  · refine adds_query.bind fun answer => ?_
    split
    · exact adds_pure _
    · refine (adds_look _).bind fun records => ?_
      exact (Adds.forIn fun rec _ _ => (adds_setJson_cacheAside
        (not_isMarker_of_head (by simp [String.toList_append])) _ _).bind fun _ => adds_pure _).bind
        fun _ => adds_pure _
  · refine (adds_getRaw husers).bind fun cached => ?_
    extract_lets +lift withUsers withListed
    -- the cached list of users, else the source's, then the users warmed eight at a time
    have hUsers : ∀ users, Adds (¬ IsMarker ·) (withUsers users) := by
      intro users
      simp only [withUsers]
      split
      · exact adds_pure _
      · exact adds_pure _
      · exact (Stays.buffered adds_warmListedUser).bind fun _ => adds_pure _
    have hListed : ∀ listed, Adds (¬ IsMarker ·) (withListed listed) := by
      intro listed
      simp only [withListed]
      split
      · exact (adds_pure _).bind fun _ => hUsers _
      · refine (adds_activeUsers now).bind fun found => ?_
        split <;> exact (adds_pure _).bind fun _ => hUsers _
    split
    · exact (adds_pure _).bind fun _ => hListed _
    · split
      · exact (adds_pure _).bind fun _ => hListed _
      · exact (adds_count _).bind fun _ => (adds_pure _).bind fun _ => hListed _

end Act

end TierCache
