import TierCache.Proofs.CacheCalls
import TierCache.Proofs.MemoryAccounting

/-!
# Every value the cache holds was issued

Every memory item and stored frame came from a set the caller issued (`Traced`).

Main statements: `runs_getRaw` and `runs_setRaw`.
-/

namespace TierCache

/-! ## Where the memory tier's items come from -/

namespace MemoryTier

/-- Every item of `t'` was an item of `t`, under the same key, with the same value and expiry. -/
def ItemsFrom (t t' : MemoryTier) : Prop :=
  ∀ e' ∈ t'.items, ∃ e ∈ t.items, e'.1 = e.1 ∧ e'.2.value = e.2.value ∧ e'.2.expires = e.2.expires

variable {t t₁ t₂ t₃ : MemoryTier}

theorem ItemsFrom.refl (t : MemoryTier) : ItemsFrom t t :=
  fun e he => ⟨e, he, rfl, rfl, rfl⟩

theorem ItemsFrom.trans (h₁ : ItemsFrom t₁ t₂) (h₂ : ItemsFrom t₂ t₃) : ItemsFrom t₁ t₃ := by
  intro e he
  obtain ⟨e₂, he₂, hk, hv, hx⟩ := h₂ e he
  obtain ⟨e₁, he₁, hk', hv', hx'⟩ := h₁ e₂ he₂
  exact ⟨e₁, he₁, hk.trans hk', hv.trans hv', hx.trans hx'⟩

theorem ItemsFrom.of_subset (h : ∀ e ∈ t₂.items, e ∈ t₁.items) : ItemsFrom t₁ t₂ :=
  fun e he => ⟨e, h e he, rfl, rfl, rfl⟩

theorem itemsFrom_drop (t : MemoryTier) (key : String) : ItemsFrom t (t.drop key) := by
  unfold drop
  split
  · exact .of_subset fun e he => (List.mem_filter.1 he).1
  · exact .refl t

theorem itemsFrom_foldl {β : Type} (step : MemoryTier → β → MemoryTier)
    (hstep : ∀ t x, ItemsFrom t (step t x)) (xs : List β) (t : MemoryTier) :
    ItemsFrom t (xs.foldl step t) := by
  induction xs generalizing t with
  | nil => exact .refl t
  | cons x xs ih => exact (hstep t x).trans (ih _)

theorem itemsFrom_evictOldest (t : MemoryTier) (m : Metrics) : ItemsFrom t (t.evictOldest m).2.1 := by
  unfold evictOldest
  dsimp only
  split
  · exact .refl t
  · exact itemsFrom_foldl _ (fun t k => itemsFrom_drop t k) _ t

theorem itemsFrom_get (t : MemoryTier) (m : Metrics) (key : String) (now : Nat) :
    ItemsFrom t (t.get m key now).2.1 := by
  unfold get
  split
  · exact .refl t
  · next item hfind =>
    split
    · exact itemsFrom_drop t key
    · -- the item read is touched in place: same key, value and expiry
      have hmem : (key, item) ∈ t.items := mem_of_find? hfind
      intro e he
      obtain ⟨e₀, he₀, rfl⟩ := List.mem_map.1 he
      by_cases hk : e₀.1 = key
      · exact ⟨(key, item), hmem, by simp [hk]⟩
      · exact ⟨e₀, he₀, by simp [hk]⟩

theorem itemsFrom_delete (t : MemoryTier) (m : Metrics) (key : String) :
    ItemsFrom t (t.delete m key).2.1 := by
  unfold delete
  split
  · exact itemsFrom_drop t key
  · exact .refl t

theorem itemsFrom_removeMatching (t : MemoryTier) (m : Metrics) (pattern : String) (now : Nat) :
    ItemsFrom t (t.removeMatching m pattern now).2.1 := by
  unfold removeMatching
  dsimp only
  split
  · exact .refl t
  · exact itemsFrom_foldl _ (fun t (e : String × Item) => itemsFrom_drop t e.1) _ t

theorem itemsFrom_sweep (t : MemoryTier) (m : Metrics) (now : Nat) :
    ItemsFrom t (t.sweep m now).2.1 := by
  unfold sweep
  dsimp only
  split
  · exact .refl t
  · exact itemsFrom_foldl _ (fun t (e : String × Item) => itemsFrom_drop t e.1) _ t

theorem itemsFrom_clear (t : MemoryTier) (m : Metrics) : ItemsFrom t (t.clear m).1 := by
  intro e he
  simp [clear] at he

-- A set keeps what was there, less what it evicts or replaces, and adds its own item.
theorem mem_set_items {m : Metrics} {key : String} {value : ByteArray} {ttlMs : Nat}
    {origin : Origin} {now : Nat} {e : String × Item}
    (he : e ∈ (t.set m key value ttlMs origin now).2.1.items) :
    (∃ e₀ ∈ t.items, e.1 = e₀.1 ∧ e.2.value = e₀.2.value ∧ e.2.expires = e₀.2.expires) ∨
      (e.1 = key ∧ e.2.value = value ∧ e.2.expires = now + max ttlMs 1) := by
  have hevict : ItemsFrom t
      (if (t.find? key).isNone && t.size ≥ t.capacity then t.evictOldest m else (0, t, m)).2.1 := by
    split
    · exact itemsFrom_evictOldest t m
    · exact .refl t
  simp only [set, List.mem_append, List.mem_singleton] at he
  rcases he with he | rfl
  · exact .inl ((hevict.trans (itemsFrom_drop _ key)) e he)
  · exact .inr ⟨rfl, rfl, rfl⟩

end MemoryTier

/-! ## Where the distributed tier's frames come from -/

namespace Backend

theorem mem_without {b : Backend} {k : String} {e : String × StoredFrame}
    (he : e ∈ (b.without k).store) : e ∈ b.store :=
  (List.mem_filter.1 he).1

theorem mem_foldl_store {β : Type} (step : Backend → β → Backend)
    (hstep : ∀ b x, ∀ e ∈ (step b x).store, e ∈ b.store) (xs : List β) (b : Backend) :
    ∀ e ∈ (xs.foldl step b).store, e ∈ b.store := by
  induction xs generalizing b with
  | nil => exact fun e he => he
  | cons x xs ih => exact fun e he => hstep b x e (ih _ e he)

-- Every frame a call leaves in the store was there before, or is the one it stores.
theorem mem_act_store {b : Backend} {call : BackendCall} {now : Nat} {e : String × StoredFrame}
    (he : e ∈ (b.act call now).1.store) :
    e ∈ b.store ∨ ∃ k f ttl, call = .setex k f ttl ∧ e.1 = k ∧ e.2.frame = f := by
  cases call with
  | get key =>
    simp only [act] at he
    split at he
    · split at he
      · exact .inl he
      · exact .inl (mem_without he)
    · exact .inl he
  | setex key frame ttlMs =>
    simp only [act, List.mem_append, List.mem_singleton] at he
    rcases he with he | rfl
    · exact .inl (mem_without he)
    · exact .inr ⟨key, frame, ttlMs, rfl, rfl, rfl⟩
  | delete key => exact .inl (mem_without he)
  | deleteMatching pattern =>
    exact .inl (mem_foldl_store _ (fun b (x : String × StoredFrame) e he => mem_without he) _ b e he)
  | ping => exact .inl he

-- A read that answers a frame found it stored under its key, and leaves it there.
theorem act_get_frame {b : Backend} {key : String} {now : Nat} {f : ByteArray}
    (h : (b.act (.get key) now).2 = .frame (some f)) :
    ∃ e ∈ (b.act (.get key) now).1.store, e.1 = key ∧ e.2.frame = f := by
  cases hsf : b.store.lookup key with
  | none => simp [act, hsf] at h
  | some sf =>
    by_cases hlive : sf.expires > now
    · simp only [act, hsf, if_pos hlive, BackendReply.frame.injEq, Option.some.injEq] at h ⊢
      obtain ⟨l₁, l₂, hl, -⟩ := List.lookup_eq_some_iff.1 hsf
      refine ⟨(key, sf), ?_, rfl, h⟩
      rw [hl]
      exact List.mem_append_right _ List.mem_cons_self
    · simp [act, hsf, hlive] at h

end Backend

namespace DistributedTier

@[simp] theorem start_store (d : DistributedTier) (c : BackendCall) (now : Nat) :
    (d.start c now).1.backend.store = d.backend.store := by
  unfold start
  split
  split <;> rfl

theorem eq_act_of_outcome {d : DistributedTier} {a : Admitted} {now : Nat}
    {r : Backend × BackendReply} (h : d.outcome a now = .ok r) : r = d.backend.act a.call now := by
  unfold outcome at h
  split at h
  · cases h
  · split at h
    · cases h
    · exact (Except.ok.inj h).symm

-- An admitted call ends with the store as it was, or as the call left it.
theorem complete_store (d : DistributedTier) (m : Metrics) (a : Admitted) (now : Nat) :
    (d.complete m a now).1.backend.store = d.backend.store ∨
      (d.complete m a now).1.backend.store = (d.backend.act a.call now).1.store := by
  unfold complete
  cases ho : d.outcome a now with
  | error e => exact .inl rfl
  | ok r =>
    obtain rfl := eq_act_of_outcome ho
    exact .inr rfl

theorem complete_frame {d : DistributedTier} {m : Metrics} {a : Admitted} {now : Nat} {f : ByteArray}
    (h : (d.complete m a now).2.2 = .ok (.frame (some f))) :
    (d.complete m a now).1.backend = (d.backend.act a.call now).1 ∧
      (d.backend.act a.call now).2 = .frame (some f) := by
  unfold complete at h ⊢
  cases ho : d.outcome a now with
  | error e =>
    rw [ho] at h
    cases h
  | ok r =>
    obtain rfl := eq_act_of_outcome ho
    rw [ho] at h
    exact ⟨rfl, Except.ok.inj h⟩

end DistributedTier

/-! ## Shares of the issued sets -/

/-- A set as its caller issued it: the key, the value, the time to live it took, and when. -/
structure Issue where
  key : String
  value : ByteArray
  ttlMs : Nat
  time : Nat

/-- What a fiber holds: the caller, the sets it has issued; a write-behind job, the frame it
writes. -/
inductive Holding where
  | caller (issued : List Issue)
  | writing (key : String) (frame : ByteArray)

namespace Holding

/-- The sets a fiber issued. -/
def issued : Holding → List Issue
  | caller is => is
  | writing .. => []

/-- Whether a fiber is the caller. -/
def isCaller : Holding → Bool
  | caller _ => true
  | writing .. => false

@[simp] theorem isCaller_caller (H : List Issue) : (caller H).isCaller = true := rfl

@[simp] theorem isCaller_writing (k : String) (f : ByteArray) : (writing k f).isCaller = false := rfl

@[simp] theorem issued_caller (H : List Issue) : (caller H).issued = H := rfl

@[simp] theorem issued_writing (k : String) (f : ByteArray) : (writing k f).issued = [] := rfl

end Holding

/-- A fiber of `S` issued a set of `k` whose frame is `f`. -/
def FrameOf (lz : BlockCodec) (comp : Compression) (S : Multiset Holding) (k : String) (f : ByteArray) : Prop :=
  ∃ o ∈ S, ∃ i ∈ o.issued, i.key = k ∧ (Frame.encode lz comp i.value).2 = f

/-- A copy of `v` held for `k` until `expires` comes from a set of `k` a fiber of `S` issued: `v` is
that set's value or what its frame decodes to; without a distributed tier it is the value itself,
and lives no longer than the set's time to live from when the set was issued. -/
def ValueOf (lz : BlockCodec) (comp : Compression) (memOnly : Bool) (S : Multiset Holding) (k : String)
    (v : ByteArray) (expires : Nat) : Prop :=
  ∃ o ∈ S, ∃ i ∈ o.issued, i.key = k ∧
    (i.value = v ∨ Frame.decode lz (Frame.encode lz comp i.value).2 = .ok v) ∧
    (memOnly = true → i.value = v ∧ expires ≤ i.time + max i.ttlMs 1)

/-- A value `v` read for `k` when the clock read `now` comes from a set of `k` among `H`: it is
that set's value or what its frame decodes to; without a distributed tier it is the value itself,
read before the set's time to live ran out, counted from when the set was issued. -/
def Served (lz : BlockCodec) (comp : Compression) (memOnly : Bool) (H : List Issue) (k : String) (v : ByteArray)
    (now : Nat) : Prop :=
  ∃ i ∈ H, i.key = k ∧ (i.value = v ∨ Frame.decode lz (Frame.encode lz comp i.value).2 = .ok v) ∧
    (memOnly = true → i.value = v ∧ now < i.time + max i.ttlMs 1)

/-- Every value the cache holds comes from a set a fiber issued, at most one fiber is the caller,
and no job waits to start. -/
structure Traced (lz : BlockCodec) (comp : Compression) (dflt : Nat) (memOnly : Bool) (h : Host)
    (S : Multiset Holding) : Prop where
  requested : h.requested = []
  codec : h.cache.codec = lz
  compression : h.cache.compression = comp
  defaultTtl : h.cache.defaultTtlMs = dflt
  memoryOnly : h.cache.memoryOnly = memOnly
  items : ∀ e ∈ h.cache.memory.items, ValueOf lz comp memOnly S e.1 e.2.value e.2.expires
  frames : ∀ d, h.cache.distributed = some d → ∀ e ∈ d.backend.store, FrameOf lz comp S e.1 e.2.frame
  writing : ∀ k f, Holding.writing k f ∈ S → FrameOf lz comp S k f
  callers : S.countP (·.isCaller) ≤ 1

/-- The fibers share the sets the caller issued; a write-behind job holds the frame it writes. -/
def readShares (lz : BlockCodec) (comp : Compression) (dflt : Nat) (memOnly : Bool) : Sharing Host Job Holding where
  Inv := Traced lz comp dflt memOnly
  hold
    | .writeBehind k f _ _ => .writing k f
    | _ => .caller []
  Spawnable
    | .writeBehind .. => True
    | _ => False
  Ended _ := True

section Traced

variable {lz : BlockCodec} {comp : Compression} {dflt : Nat} {memOnly : Bool} {S S' M : Multiset Holding}
  {h h' : Host} {k : String} {f v : ByteArray} {x : Nat}

/-- Every set a fiber of `S` issued, a fiber of `S'` issued too. -/
def IssuesIn (S S' : Multiset Holding) : Prop :=
  ∀ o ∈ S, ∀ i ∈ o.issued, ∃ o' ∈ S', i ∈ o'.issued

theorem FrameOf.mono (hS : IssuesIn S S') (hf : FrameOf lz comp S k f) : FrameOf lz comp S' k f := by
  obtain ⟨o, ho, i, hi, hik⟩ := hf
  obtain ⟨o', ho', hi'⟩ := hS o ho i hi
  exact ⟨o', ho', i, hi', hik⟩

theorem ValueOf.mono (hS : IssuesIn S S') (hv : ValueOf lz comp memOnly S k v x) :
    ValueOf lz comp memOnly S' k v x := by
  obtain ⟨o, ho, i, hi, hik⟩ := hv
  obtain ⟨o', ho', hi'⟩ := hS o ho i hi
  exact ⟨o', ho', i, hi', hik⟩

theorem issuesIn_grow {H H' : List Issue} (hH : ∀ i ∈ H, i ∈ H') (M : Multiset Holding) :
    IssuesIn (.caller H ::ₘ M) (.caller H' ::ₘ M) := by
  intro o ho i hi
  rcases Multiset.mem_cons.1 ho with rfl | ho
  · exact ⟨.caller H', Multiset.mem_cons_self _ _, hH i hi⟩
  · exact ⟨o, Multiset.mem_cons_of_mem ho, hi⟩

theorem issuesIn_cons (o : Holding) (S : Multiset Holding) : IssuesIn S (o ::ₘ S) :=
  fun o' ho' _ hi => ⟨o', Multiset.mem_cons_of_mem ho', hi⟩

-- The caller issued every set the fibers did: no other fiber is a caller.
theorem Traced.mem_caller {H : List Issue} (hT : Traced lz comp dflt memOnly h (.caller H ::ₘ M))
    {o : Holding} (ho : o ∈ Holding.caller H ::ₘ M) {i : Issue} (hi : i ∈ o.issued) : i ∈ H := by
  have hM : M.countP (·.isCaller) = 0 := by
    have h1 := hT.callers
    simp only [Multiset.countP_cons, Holding.isCaller_caller, if_true] at h1
    omega
  rcases Multiset.mem_cons.1 ho with rfl | ho
  · exact hi
  · cases o with
    | caller _ =>
      have : 0 < M.countP (·.isCaller) := Multiset.countP_pos.2 ⟨_, ho, rfl⟩
      omega
    | writing => simp at hi

-- The caller issuing more keeps every value traced.
theorem Traced.grow {H H' : List Issue} (hT : Traced lz comp dflt memOnly h (.caller H ::ₘ M))
    (hH : ∀ i ∈ H, i ∈ H') : Traced lz comp dflt memOnly h (.caller H' ::ₘ M) where
  requested := hT.requested
  codec := hT.codec
  compression := hT.compression
  defaultTtl := hT.defaultTtl
  memoryOnly := hT.memoryOnly
  items e he := (hT.items e he).mono (issuesIn_grow hH M)
  frames d hd e he := (hT.frames d hd e he).mono (issuesIn_grow hH M)
  writing k f hw := by
    have hw' : Holding.writing k f ∈ Holding.caller H ::ₘ M :=
      Multiset.mem_cons_of_mem ((Multiset.mem_cons.1 hw).resolve_left (by simp))
    exact (hT.writing k f hw').mono (issuesIn_grow hH M)
  callers := by
    have h1 := hT.callers
    simp only [Multiset.countP_cons, Holding.isCaller_caller, if_true] at h1 ⊢
    exact h1

-- The clock moving keeps every value traced: the invariant does not look at it.
theorem Traced.setClock (hT : Traced lz comp dflt memOnly h S) (t : Nat) :
    Traced lz comp dflt memOnly { h with clock := t } S :=
  ⟨hT.requested, hT.codec, hT.compression, hT.defaultTtl, hT.memoryOnly, hT.items, hT.frames, hT.writing,
    hT.callers⟩

-- A write-behind job joins holding a frame that was issued.
theorem Traced.addWriting (hT : Traced lz comp dflt memOnly h S) (hf : FrameOf lz comp S k f) :
    Traced lz comp dflt memOnly h (.writing k f ::ₘ S) where
  requested := hT.requested
  codec := hT.codec
  compression := hT.compression
  defaultTtl := hT.defaultTtl
  memoryOnly := hT.memoryOnly
  items e he := (hT.items e he).mono (issuesIn_cons _ S)
  frames d hd e he := (hT.frames d hd e he).mono (issuesIn_cons _ S)
  writing k' f' hw := by
    rcases Multiset.mem_cons.1 hw with hw | hw
    · cases hw
      exact hf.mono (issuesIn_cons _ S)
    · exact (hT.writing k' f' hw).mono (issuesIn_cons _ S)
  callers := by simpa [Multiset.countP_cons] using hT.callers

-- A change keeps every value traced when what it keeps came from before and what it adds was
-- issued.
theorem Traced.of_parts (hT : Traced lz comp dflt memOnly h S) (hreq : h'.requested = [])
    (hcodec : h'.cache.codec = h.cache.codec) (hcomp : h'.cache.compression = h.cache.compression)
    (hdflt : h'.cache.defaultTtlMs = h.cache.defaultTtlMs)
    (honly : h'.cache.memoryOnly = h.cache.memoryOnly)
    (hitems : ∀ e ∈ h'.cache.memory.items,
      (∃ e₀ ∈ h.cache.memory.items, e.1 = e₀.1 ∧ e.2.value = e₀.2.value ∧ e.2.expires = e₀.2.expires) ∨
        ValueOf lz comp memOnly S e.1 e.2.value e.2.expires)
    (hstore : ∀ d', h'.cache.distributed = some d' → ∀ e ∈ d'.backend.store,
      (∃ d, h.cache.distributed = some d ∧ e ∈ d.backend.store) ∨ FrameOf lz comp S e.1 e.2.frame) :
    Traced lz comp dflt memOnly h' S where
  requested := hreq
  codec := hcodec.trans hT.codec
  compression := hcomp.trans hT.compression
  defaultTtl := hdflt.trans hT.defaultTtl
  memoryOnly := honly.trans hT.memoryOnly
  items e he := by
    rcases hitems e he with ⟨e₀, he₀, hk, hv, hx⟩ | hval
    · rw [hk, hv, hx]
      exact hT.items e₀ he₀
    · exact hval
  frames d' hd' e he := by
    rcases hstore d' hd' e he with ⟨d, hd, he₀⟩ | hframe
    · exact hT.frames d hd e he₀
    · exact hframe
  writing := hT.writing
  callers := hT.callers

-- A change that asks for no job keeps the invariant when it keeps it whatever the others hold.
theorem keeps_of_traced {o o' : Holding} {g : Host → Host}
    (hg : ∀ M, Traced lz comp dflt memOnly h (o ::ₘ M) → Traced lz comp dflt memOnly (g h) (o' ::ₘ M)) :
    Stage.Keeps Host.stage (readShares lz comp dflt memOnly) o g h o' := by
  intro M hI
  have hT := hg M hI
  simp only [Host.stage_takeJobs, hT.requested, List.not_mem_nil, false_imp_iff, implies_true,
    List.map_nil, Multiset.coe_nil, Multiset.add_zero, true_and]
  exact { hT with requested := rfl }

end Traced

/-! ## What each change of the cache keeps -/

namespace TieredCache

/-- A change of the cache that leaves its memory items, its stored frames and its settings. -/
def Still (c c' : TieredCache) : Prop :=
  c'.memory.items = c.memory.items ∧
    c'.distributed.map (·.backend.store) = c.distributed.map (·.backend.store) ∧
    c'.compression = c.compression ∧ c'.defaultTtlMs = c.defaultTtlMs ∧ c'.memoryOnly = c.memoryOnly ∧
    c'.codec = c.codec

theorem still_count (c : TieredCache) (f : Metrics → Metrics) : Still c (c.count f) :=
  ⟨rfl, rfl, rfl, rfl, rfl, rfl⟩

theorem still_publish (c : TieredCache) (e : CacheEvent) : Still c (c.publish e) :=
  ⟨rfl, rfl, rfl, rfl, rfl, rfl⟩

theorem still_offerTrigger (c : TieredCache) (key : String) : Still c (c.offerTrigger key) := by
  unfold offerTrigger
  split
  · exact ⟨rfl, rfl, rfl, rfl, rfl, rfl⟩
  · split
    · exact ⟨rfl, rfl, rfl, rfl, rfl, rfl⟩
    · exact ⟨rfl, rfl, rfl, rfl, rfl, rfl⟩

theorem still_writeBehind (c : TieredCache) (w : WriteBehind) : Still c { c with writeBehind := w } :=
  ⟨rfl, rfl, rfl, rfl, rfl, rfl⟩

theorem Still.trans {c₁ c₂ c₃ : TieredCache} (h₁ : Still c₁ c₂) (h₂ : Still c₂ c₃) : Still c₁ c₃ :=
  ⟨h₂.1.trans h₁.1, h₂.2.1.trans h₁.2.1, h₂.2.2.1.trans h₁.2.2.1, h₂.2.2.2.1.trans h₁.2.2.2.1,
    h₂.2.2.2.2.1.trans h₁.2.2.2.2.1, h₂.2.2.2.2.2.trans h₁.2.2.2.2.2⟩

end TieredCache

section Changes

variable {lz : BlockCodec} {comp : Compression} {dflt : Nat} {memOnly : Bool} {S : Multiset Holding} {h h' : Host}

theorem Traced.still (hT : Traced lz comp dflt memOnly h S) (hreq : h'.requested = [])
    (hc : TieredCache.Still h.cache h'.cache) : Traced lz comp dflt memOnly h' S := by
  obtain ⟨hitems, hstore, hcomp, hdflt, honly, hcodec⟩ := hc
  refine hT.of_parts hreq hcodec hcomp hdflt honly (fun e he => .inl ⟨e, hitems ▸ he, rfl, rfl, rfl⟩) ?_
  intro d' hd' e he
  rw [hd'] at hstore
  obtain ⟨d, hd, hsame⟩ := Option.map_eq_some_iff.1 hstore.symm
  exact .inl ⟨d, hd, hsame ▸ he⟩

-- A change of the memory tier that only keeps, touches or drops items.
theorem Traced.memory {t : MemoryTier} {m : Metrics} (hT : Traced lz comp dflt memOnly h S)
    (ht : h.cache.memory.ItemsFrom t) :
    Traced lz comp dflt memOnly { h with cache := { h.cache with memory := t, metrics := m } } S :=
  hT.of_parts hT.requested rfl rfl rfl rfl (fun e he => .inl (ht e he))
    (fun d' hd' _ he => .inl ⟨d', hd', he⟩)

-- Storing a value in memory keeps every value traced when the new copy is traced.
theorem Traced.remember {key : String} {v : ByteArray} {ttl : Nat} {origin : Origin}
    (hT : Traced lz comp dflt memOnly h S) (hv : ValueOf lz comp memOnly S key v (h.clock + max ttl 1)) :
    Traced lz comp dflt memOnly
      { h with cache := h.cache.remember key v ttl origin h.clock } S := by
  refine hT.of_parts hT.requested rfl rfl rfl rfl (fun e he => ?_) (fun d' hd' e he => .inl ⟨d', hd', he⟩)
  rcases MemoryTier.mem_set_items he with hold | ⟨hk, hval, hx⟩
  · exact .inl hold
  · exact .inr (by rw [hk, hval, hx]; exact hv)

-- Starting a call moves only the breaker and the backend's counts.
theorem Traced.startCall (hT : Traced lz comp dflt memOnly h S) (call : BackendCall) :
    Traced lz comp dflt memOnly (Act.startCall call h).2 S := by
  unfold Act.startCall
  split
  · exact hT
  · next d hd =>
    refine hT.still hT.requested ⟨rfl, ?_, rfl, rfl, ?_, rfl⟩
    · simp [hd]
    · simp [TieredCache.memoryOnly, hd]

-- Ending a call keeps every frame traced when a frame it stores was issued.
theorem Traced.endCall (hT : Traced lz comp dflt memOnly h S) (a : DistributedTier.Admitted)
    (hset : ∀ k f ttl, a.call = .setex k f ttl → FrameOf lz comp S k f) :
    Traced lz comp dflt memOnly (Act.endCall a h).2 S := by
  unfold Act.endCall
  split
  · exact hT
  · next d hd =>
    refine hT.of_parts hT.requested rfl rfl rfl (by simp [TieredCache.memoryOnly, hd])
      (fun e he => .inl ⟨e, he, rfl, rfl, rfl⟩) ?_
    intro d' hd' e he
    simp only [Option.some.injEq] at hd'
    subst hd'
    rcases DistributedTier.complete_store d h.cache.metrics a h.clock with hsame | hact
    · exact .inl ⟨d, hd, hsame ▸ he⟩
    · rw [hact] at he
      rcases Backend.mem_act_store he with hold | ⟨k, f, ttl, hcall, hk, hf⟩
      · exact .inl ⟨d, hd, hold⟩
      · exact .inr (hk ▸ hf ▸ hset k f ttl hcall)

-- A call that answers a frame leaves it stored under the key it read.
theorem endCall_frame {a : DistributedTier.Admitted} {key : String} {f : ByteArray}
    (hcall : a.call = .get key) (hr : (Act.endCall a h).1 = .ok (.frame (some f))) :
    ∃ d, (Act.endCall a h).2.cache.distributed = some d ∧
      ∃ e ∈ d.backend.store, e.1 = key ∧ e.2.frame = f := by
  unfold Act.endCall at hr ⊢
  split at hr
  · cases hr
  · next d hd =>
    obtain ⟨hb, hreply⟩ := DistributedTier.complete_frame hr
    rw [hcall] at hb hreply
    refine ⟨_, rfl, ?_⟩
    rw [hb]
    exact Backend.act_get_frame hreply

end Changes

namespace MemoryTier

-- A read that answers a value found it in a live item under its key.
theorem get_eq_some {t : MemoryTier} {m : Metrics} {key : String} {now : Nat} {v : ByteArray}
    (h : (t.get m key now).1 = some v) :
    ∃ e ∈ t.items, e.1 = key ∧ e.2.value = v ∧ now < e.2.expires := by
  unfold get at h
  split at h
  · cases h
  · next item hfind =>
    split at h
    · cases h
    · next hlive =>
      simp only [Option.some.injEq] at h
      refine ⟨(key, item), mem_of_find? hfind, rfl, h, ?_⟩
      simpa [Item.expiredAt] using hlive

end MemoryTier

/-! ## Every call keeps every value traced -/

section Calls

variable {lz : BlockCodec} {comp : Compression} {dflt : Nat} {memOnly : Bool}

/-- The invariant holds with `o` among the shares. -/
def Holds (lz : BlockCodec) (comp : Compression) (dflt : Nat) (memOnly : Bool) (h : Host) (o : Holding) : Prop :=
  ∃ M, Traced lz comp dflt memOnly h (o ::ₘ M)

variable {o : Holding} {s : Host} {M : Multiset Holding} {H : List Issue}

-- A live memory copy of a value was served by a set the caller issued.
theorem Traced.served (hT : Traced lz comp dflt memOnly s (.caller H ::ₘ M))
    {e : String × Item} (he : e ∈ s.cache.memory.items) {now : Nat} (hlive : now < e.2.expires) :
    Served lz comp memOnly H e.1 e.2.value now := by
  obtain ⟨o, ho, i, hi, hk, hval, honly⟩ := hT.items e he
  exact ⟨i, hT.mem_caller ho hi, hk, hval,
    fun hm => ⟨(honly hm).1, Nat.lt_of_lt_of_le hlive (honly hm).2⟩⟩

-- A change that keeps every value traced whatever the shares keeps the share.
theorem runs_modify_all {g : Host → Host} {Q : Unit → Holding → Host → Prop}
    (hI : Traced lz comp dflt memOnly s (o ::ₘ M))
    (hg : ∀ S, Traced lz comp dflt memOnly s S → Traced lz comp dflt memOnly (g s) S)
    (hq : Holds lz comp dflt memOnly (Host.stage.takeJobs (g s)).2 o →
      Q () o (Host.stage.takeJobs (g s)).2) :
    Stage.Runs Host.stage (readShares lz comp dflt memOnly) Q o s (Fiber.modify g) := by
  have hk : Stage.Keeps Host.stage (readShares lz comp dflt memOnly) o g s o :=
    keeps_of_traced fun M hT => hg _ hT
  exact Stage.Runs.modify hk (hq ⟨_, (hk M hI).2⟩)

theorem runs_modifyGet_all {α : Type} {F : Host → α × Host} {Q : α → Holding → Host → Prop}
    (hI : Traced lz comp dflt memOnly s (o ::ₘ M))
    (hg : ∀ S, Traced lz comp dflt memOnly s S → Traced lz comp dflt memOnly (F s).2 S)
    (hq : Holds lz comp dflt memOnly (Host.stage.takeJobs (F s).2).2 o →
      Q (F s).1 o (Host.stage.takeJobs (F s).2).2) :
    Stage.Runs Host.stage (readShares lz comp dflt memOnly) Q o s (Fiber.modifyGet F) := by
  have hk : Stage.Keeps Host.stage (readShares lz comp dflt memOnly) o (fun _ => (F s).2) s o :=
    keeps_of_traced fun M hT => hg _ hT
  exact Stage.Runs.modifyGet hk (hq ⟨_, (hk M hI).2⟩)

-- Counting and publishing keep the share and the clock.
theorem runs_still {F : Nat → TieredCache → TieredCache}
    (hI : Traced lz comp dflt memOnly s (o ::ₘ M)) (hF : ∀ now c, TieredCache.Still c (F now c)) :
    Stage.Runs Host.stage (readShares lz comp dflt memOnly)
      (fun _ o' s' => o' = o ∧ Holds lz comp dflt memOnly s' o ∧ s'.clock = s.clock) o s
      (Act.changeCache F) :=
  runs_modify_all hI (fun _ hT => hT.still hT.requested (hF _ _)) fun hH => ⟨rfl, hH, rfl⟩

theorem runs_tierGet (hI : Traced lz comp dflt memOnly s (o ::ₘ M)) (key : String) :
    Stage.Runs Host.stage (readShares lz comp dflt memOnly)
      (fun r o' s' => o' = o ∧ Holds lz comp dflt memOnly s' o ∧ ∀ f, r = .ok (some f) →
        ∃ d, s'.cache.distributed = some d ∧ ∃ e ∈ d.backend.store, e.1 = key ∧ e.2.frame = f)
      o s (Act.tierGet key) := by
  have hcall : Stage.Runs Host.stage (readShares lz comp dflt memOnly)
      (fun r o' s' => o' = o ∧ Holds lz comp dflt memOnly s' o ∧ ∀ f, r = .ok (.frame (some f)) →
        ∃ d, s'.cache.distributed = some d ∧ ∃ e ∈ d.backend.store, e.1 = key ∧ e.2.frame = f)
      o s (Act.callTier (.get key)) := by
    refine Act.runs_callTier hI (keeps_of_traced fun M hT => hT.startCall _)
      (fun _ h M hI => ⟨rfl, ⟨M, hI⟩, by simp⟩) fun a ha h M hI => ?_
    have hcall := Act.startCall_call ha
    have hk : Stage.Keeps Host.stage (readShares lz comp dflt memOnly) o (fun _ => (Act.endCall a h).2) h o :=
      keeps_of_traced fun M hT => hT.endCall a (by rw [hcall]; intro k f t hset; cases hset)
    refine ⟨o, hk, rfl, ⟨_, (hk M hI).2⟩, fun f hr => ?_⟩
    simpa using endCall_frame hcall hr
  refine hcall.bind fun r o' s' ⟨ho', hH, hstored⟩ => .done ⟨ho', hH, fun f hf => hstored f ?_⟩
  cases r with
  | error e => cases hf
  | ok reply =>
    cases reply <;> simp only [Except.map, Except.ok.injEq, reduceCtorEq] at hf
    rw [hf]

theorem runs_memoryGet (hI : Traced lz comp dflt memOnly s (.caller H ::ₘ M)) (key : String) :
    Stage.Runs Host.stage (readShares lz comp dflt memOnly)
      (fun found o' s' => o' = .caller H ∧ Holds lz comp dflt memOnly s' (.caller H) ∧
        s'.clock = s.clock ∧ ∀ v, found = some v → Served lz comp memOnly H key v s.clock)
      (.caller H) s (Act.onCache fun now c => c.onMemory fun m k => m.get k key now) := by
  refine runs_modifyGet_all hI (fun _ hT => hT.memory (MemoryTier.itemsFrom_get _ _ _ _))
    fun hH => ⟨rfl, hH, rfl, fun v hv => ?_⟩
  obtain ⟨e, he, hk, hval, hlive⟩ := MemoryTier.get_eq_some hv
  rw [← hk, ← hval]
  exact hI.served he hlive

-- A value the distributed tier holds under a key, read back, was served by a set the caller
-- issued.
theorem Traced.served_frame (hT : Traced lz comp dflt memOnly s (.caller H ::ₘ M))
    {d : DistributedTier} (hd : s.cache.distributed = some d) {e : String × StoredFrame}
    (he : e ∈ d.backend.store) {v : ByteArray} (hv : Frame.decode lz e.2.frame = .ok v) (now : Nat) :
    Served lz comp memOnly H e.1 v now := by
  obtain ⟨o, ho, i, hi, hk, hf⟩ := hT.frames d hd e he
  have hdist : memOnly = false := by
    rw [← hT.memoryOnly]
    simp [TieredCache.memoryOnly, hd]
  exact ⟨i, hT.mem_caller ho hi, hk, .inr (hf ▸ hv), by simp [hdist]⟩

-- A value read from the distributed tier and kept in memory with the default time to live.
theorem Traced.keepFound {S : Multiset Holding} (hT : Traced lz comp dflt memOnly s S)
    {d : DistributedTier} (hd : s.cache.distributed = some d) {e : String × StoredFrame}
    (he : e ∈ d.backend.store) {v : ByteArray} (hv : Frame.decode lz e.2.frame = .ok v) :
    Traced lz comp dflt memOnly { s with cache :=
      ((s.cache.remember e.1 v s.cache.defaultTtlMs .distributed s.clock).count Metrics.distributedHit) } S := by
  have hdist : memOnly = false := by
    rw [← hT.memoryOnly]
    simp [TieredCache.memoryOnly, hd]
  obtain ⟨o, ho, i, hi, hk, hf⟩ := hT.frames d hd e he
  have hvalue : ValueOf lz comp memOnly S e.1 v (s.clock + max s.cache.defaultTtlMs 1) :=
    ⟨o, ho, i, hi, hk, .inr (hf ▸ hv), by simp [hdist]⟩
  have hkept : Traced lz comp dflt memOnly
      { s with cache := s.cache.remember e.1 v s.cache.defaultTtlMs .distributed s.clock } S :=
    hT.remember hvalue
  exact hkept.still hkept.requested (TieredCache.still_count _ _)

theorem runs_lookup (hI : Traced lz comp dflt memOnly s (.caller H ::ₘ M)) (key : String) :
    Stage.Runs Host.stage (readShares lz comp dflt memOnly)
      (fun found o' s' => o' = .caller H ∧ Holds lz comp dflt memOnly s' (.caller H) ∧
        ∀ v, found = some v → Served lz comp memOnly H key v s'.clock)
      (.caller H) s (Act.lookup key) := by
  unfold Act.lookup
  refine (runs_memoryGet hI key).bind fun found o' s₁ ⟨ho', ⟨M₁, hI₁⟩, hclock₁, hfound⟩ => ?_
  subst o'
  cases found with
  | some v =>
    -- a memory hit: counted, and answered
    refine (runs_still hI₁ fun _ c => TieredCache.still_count c _).bind
      fun _ o' s₂ ⟨ho', hH, hclock₂⟩ => .done ⟨ho', hH, fun v' hv' => ?_⟩
    cases hv'
    rw [hclock₂, hclock₁]
    exact hfound v rfl
  | none =>
    refine .read ?_
    simp only [Fiber.done_bind]
    split
    · exact .done ⟨rfl, ⟨M₁, hI₁⟩, by simp⟩
    · refine (runs_tierGet hI₁ key).bind fun r o' s₂ ⟨ho', ⟨M₂, hI₂⟩, hstored⟩ => ?_
      subst o'
      rcases r with _ | (_ | frame)
      · exact .done ⟨rfl, ⟨M₂, hI₂⟩, by simp⟩
      · exact .done ⟨rfl, ⟨M₂, hI₂⟩, by simp⟩
      · obtain ⟨d, hd, e, he, hk, hf⟩ := hstored frame rfl
        -- the frame is read with the cache's block codec
        refine .read ?_
        simp only [Fiber.done_bind, hI₂.codec]
        cases hv : Frame.decode lz frame with
        | ok v =>
          -- a distributed hit: kept in memory and answered
          rw [← hf] at hv
          have hkeep : Stage.Runs Host.stage (readShares lz comp dflt memOnly)
              (fun _ o' s' => o' = .caller H ∧ Holds lz comp dflt memOnly s' (.caller H)) (.caller H) s₂
              (Act.changeCache fun now c =>
                (c.remember key v c.defaultTtlMs .distributed now).count Metrics.distributedHit) :=
            runs_modify_all hI₂ (fun _ hT => hk ▸ hT.keepFound hd he hv) fun hH => ⟨rfl, hH⟩
          refine hkeep.bind fun _ o' s₃ ⟨ho', hH⟩ => .done ⟨ho', hH, fun v' hv' => ?_⟩
          cases hv'
          rw [← hk]
          exact hI₂.served_frame hd he hv _
        | error _ =>
          exact (runs_still hI₂ fun _ c => TieredCache.still_count c _).bind
            fun _ o' s₃ ⟨ho', hH, _⟩ => .done ⟨ho', hH, by simp⟩

theorem runs_getRaw (hI : Traced lz comp dflt memOnly s (.caller H ::ₘ M)) (key : String) :
    Stage.Runs Host.stage (readShares lz comp dflt memOnly)
      (fun found o' s' => o' = .caller H ∧ Holds lz comp dflt memOnly s' (.caller H) ∧
        ∀ v, found = some v → Served lz comp memOnly H key v s'.clock)
      (.caller H) s (Act.getRaw key) := by
  unfold Act.getRaw
  refine (runs_lookup hI key).bind fun found o' s₁ ⟨ho', ⟨M₁, hI₁⟩, hfound⟩ => ?_
  subst o'
  -- the sample is counted after the miss, if there was one; neither moves the clock
  have hsample : ∀ s₂ M₂, Traced lz comp dflt memOnly s₂ (.caller H ::ₘ M₂) → s₂.clock = s₁.clock →
      Stage.Runs Host.stage (readShares lz comp dflt memOnly)
        (fun found' o' s' => o' = .caller H ∧ Holds lz comp dflt memOnly s' (.caller H) ∧
          ∀ v, found' = some v → Served lz comp memOnly H key v s'.clock)
        (.caller H) s₂ (Act.changeCache (fun _ c => c.count Metrics.sample) >>= fun _ => pure found) := by
    intro s₂ M₂ hI₂ hclock₂
    exact (runs_still hI₂ fun _ c => TieredCache.still_count c _).bind
      fun _ o' s₃ ⟨ho', hH, hclock₃⟩ => .done ⟨ho', hH, by rw [hclock₃, hclock₂]; exact hfound⟩
  split
  · exact (runs_still hI₁ fun _ c => TieredCache.still_count c _).bind
      fun _ o' s₂ ⟨ho', ⟨M₂, hI₂⟩, hclock₂⟩ => by subst o'; exact hsample s₂ M₂ hI₂ hclock₂
  · exact hsample s₁ M₁ hI₁ rfl

-- A call to the distributed tier keeps every value traced when the share held from its start on,
-- `o₁`, issued every frame it stores.
theorem runs_callTier_traced {o₁ : Holding} {call : BackendCall}
    (hI : Traced lz comp dflt memOnly s (o ::ₘ M))
    (hgrow : ∀ M, Traced lz comp dflt memOnly s (o ::ₘ M) → Traced lz comp dflt memOnly s (o₁ ::ₘ M))
    (hset : ∀ k f ttl, call = .setex k f ttl → ∀ h M,
      Traced lz comp dflt memOnly h (o₁ ::ₘ M) → FrameOf lz comp (o₁ ::ₘ M) k f) :
    Stage.Runs Host.stage (readShares lz comp dflt memOnly)
      (fun _ o' s' => o' = o₁ ∧ Holds lz comp dflt memOnly s' o₁) o s (Act.callTier call) := by
  refine Act.runs_callTier hI (keeps_of_traced fun M hT => (hgrow M hT).startCall _)
    (fun _ h M hI => ⟨rfl, M, hI⟩) fun a ha h M hI => ?_
  have hcall := Act.startCall_call ha
  have hk : Stage.Keeps Host.stage (readShares lz comp dflt memOnly) o₁
      (fun _ => (Act.endCall a h).2) h o₁ :=
    keeps_of_traced fun M hT => hT.endCall a fun k f ttl hc => hset k f ttl (hcall ▸ hc) h M hT
  exact ⟨o₁, hk, rfl, _, (hk M hI).2⟩

theorem runs_tierSet {o₁ : Holding} (hI : Traced lz comp dflt memOnly s (o ::ₘ M))
    (hgrow : ∀ M, Traced lz comp dflt memOnly s (o ::ₘ M) → Traced lz comp dflt memOnly s (o₁ ::ₘ M))
    {key : String} {frame : ByteArray} (ttl : Nat)
    (hframe : ∀ h M, Traced lz comp dflt memOnly h (o₁ ::ₘ M) → FrameOf lz comp (o₁ ::ₘ M) key frame) :
    Stage.Runs Host.stage (readShares lz comp dflt memOnly)
      (fun _ o' s' => o' = o₁ ∧ Holds lz comp dflt memOnly s' o₁) o s (Act.tierSet key frame ttl) :=
  (runs_callTier_traced hI hgrow fun _ _ _ hc => by cases hc; exact hframe).bind
    fun _ _ _ h => .done h

theorem runs_tierDelete (hI : Traced lz comp dflt memOnly s (o ::ₘ M)) (key : String) :
    Stage.Runs Host.stage (readShares lz comp dflt memOnly)
      (fun _ o' s' => o' = o ∧ Holds lz comp dflt memOnly s' o) o s (Act.tierDelete key) :=
  (runs_callTier_traced hI (fun _ hT => hT) fun _ _ _ hc => by cases hc).bind
    fun _ _ _ h => .done h

theorem runs_tierDeleteMatching (hI : Traced lz comp dflt memOnly s (o ::ₘ M)) (pattern : String) :
    Stage.Runs Host.stage (readShares lz comp dflt memOnly)
      (fun _ o' s' => o' = o ∧ Holds lz comp dflt memOnly s' o) o s (Act.tierDeleteMatching pattern) := by
  unfold Act.tierDeleteMatching
  split
  · exact (runs_callTier_traced hI (fun _ hT => hT) fun _ _ _ hc => by cases hc).bind
      fun _ _ _ h => .done h
  · exact (runs_callTier_traced hI (fun _ hT => hT) fun _ _ _ hc => by cases hc).bind
      fun _ _ _ h => .done h

/-- A write to the distributed tier, by a caller whose share grows from `H` to `H₁` at its start,
stores a frame of a set of `H₁`; without a distributed tier nothing happens. -/
theorem runs_writeThrough {H₁ : List Issue} (hI : Traced lz comp dflt memOnly s (.caller H ::ₘ M))
    (hH : ∀ i ∈ H, i ∈ H₁) {key : String} {v : ByteArray} (ttl : Nat)
    (hissued : ∃ i ∈ H₁, i.key = key ∧ i.value = v) :
    Stage.Runs Host.stage (readShares lz comp dflt memOnly)
      (fun _ o' s' => o' = .caller (if memOnly then H else H₁) ∧ Holds lz comp dflt memOnly s' o' ∧
        (memOnly = true → s' = s))
      (.caller H) s (Act.writeThrough key v ttl) := by
  unfold Act.writeThrough Act.memoryOnly Act.look
  refine .read ?_
  simp only [Fiber.done_bind]
  rw [hI.memoryOnly]
  cases memOnly with
  | true => exact .done ⟨rfl, ⟨M, hI⟩, fun _ => rfl⟩
  | false =>
    refine .read ?_
    simp only [Fiber.done_bind]
    obtain ⟨i, hi, hk, hv⟩ := hissued
    -- the frame stored is the one the set of `H₁` encodes
    have hframe : ∀ h M', Traced lz comp dflt false h (.caller H₁ ::ₘ M') →
        FrameOf lz comp (.caller H₁ ::ₘ M') key (Frame.encode s.cache.codec s.cache.compression v).2 :=
      fun _ _ _ => ⟨.caller H₁, Multiset.mem_cons_self _ _, i, hi, hk, by rw [hv, hI.compression, hI.codec]⟩
    exact (runs_tierSet hI (fun M hT => hT.grow hH) ttl hframe).bind
      fun _ o' s' ⟨ho', hH'⟩ => .done ⟨ho', ho' ▸ hH', nofun⟩

-- Asking for a write-behind job hands it a frame that the asking share issued.
theorem keeps_spawnWriting {key : String} {frame : ByteArray} {ttl ticket : Nat}
    (hframe : ∀ M, Traced lz comp dflt memOnly s (o ::ₘ M) → FrameOf lz comp (o ::ₘ M) key frame) :
    Stage.Keeps Host.stage (readShares lz comp dflt memOnly) o
      (fun h => { h with requested := h.requested ++ [.writeBehind key frame ttl ticket] }) s o := by
  intro M hT
  have hnil := hT.requested
  refine ⟨by simp [hnil, readShares], ?_⟩
  have hsame : { s with requested := ([] : List Job) } = s := by cases s; simp_all
  simp only [Host.stage_takeJobs, hnil, List.nil_append, List.map_cons, List.map_nil, hsame]
  have hjob : o ::ₘ (M + ↑[(readShares lz comp dflt memOnly).hold (.writeBehind key frame ttl ticket)]) =
      .writing key frame ::ₘ (o ::ₘ M) := by
    rw [Multiset.coe_singleton, ← Multiset.cons_zero, Multiset.add_cons, Multiset.add_zero,
      Multiset.cons_swap]
    rfl
  rw [hjob]
  exact hT.addWriting (hframe M hT)

/-- Scheduling the write-behind write of a set of `H` starts a job holding its frame. -/
theorem runs_scheduleWrite (hI : Traced lz comp dflt memOnly s (.caller H ::ₘ M)) {key : String}
    {v : ByteArray} (ttl : Nat) (hissued : ∃ i ∈ H, i.key = key ∧ i.value = v) :
    Stage.Runs Host.stage (readShares lz comp dflt memOnly)
      (fun _ o' s' => o' = .caller H ∧ Holds lz comp dflt memOnly s' (.caller H)) (.caller H) s
      (Act.scheduleWrite key v ttl) := by
  unfold Act.scheduleWrite Act.memoryOnly Act.look
  refine .read ?_
  simp only [Fiber.done_bind]
  split
  · exact .done ⟨rfl, M, hI⟩
  · -- the write is counted as pending and given its ticket; its frame is the set's
    refine Stage.Runs.bind (runs_modifyGet_all hI
        (fun _ hT => hT.still hT.requested ⟨rfl, rfl, rfl, rfl, rfl, rfl⟩)
        fun hH => ⟨by rw [hI.compression, hI.codec], rfl, hH⟩)
      fun x o' s₁ (h : x.1 = (Frame.encode lz comp v).2 ∧ o' = .caller H ∧
        Holds lz comp dflt memOnly s₁ (.caller H)) => ?_
    obtain ⟨hframe, rfl, M₁, hI₁⟩ := h
    obtain ⟨frame, ticket⟩ := x
    obtain ⟨i, hi, hk, hv⟩ := hissued
    have hkeep : Stage.Keeps Host.stage (readShares lz comp dflt memOnly) (.caller H)
        (fun h => { h with requested := h.requested ++ [.writeBehind key frame ttl ticket] }) s₁
        (.caller H) :=
      keeps_spawnWriting fun M' _ =>
        ⟨.caller H, Multiset.mem_cons_self _ _, i, hi, hk, by rw [hv]; exact hframe.symm⟩
    exact Stage.Runs.modify hkeep ⟨rfl, _, (hkeep M₁ hI₁).2⟩

-- Keeping a set's value in memory, with a share that issued it, keeps every value traced.
theorem runs_rememberIssued {H₀ H₁ : List Issue} (hI : Traced lz comp dflt memOnly s (.caller H₀ ::ₘ M))
    (hH : ∀ x ∈ H₀, x ∈ H₁) {i : Issue} (hi : i ∈ H₁) (hclock : memOnly = true → s.clock ≤ i.time) :
    Stage.Runs Host.stage (readShares lz comp dflt memOnly)
      (fun _ o' s' => o' = .caller H₁ ∧ Holds lz comp dflt memOnly s' o') (.caller H₀) s
      (Act.changeCache fun now c => c.remember i.key i.value i.ttlMs .memory now) := by
  have hk : Stage.Keeps Host.stage (readShares lz comp dflt memOnly) (.caller H₀)
      (fun h => { h with cache := h.cache.remember i.key i.value i.ttlMs .memory h.clock }) s
      (.caller H₁) :=
    keeps_of_traced fun _ hT => (hT.grow hH).remember
      ⟨.caller H₁, Multiset.mem_cons_self _ _, i, hi, rfl, .inl rfl,
        fun hm => ⟨rfl, Nat.add_le_add_right (hclock hm) _⟩⟩
  exact Stage.Runs.modify hk ⟨rfl, _, (hk M hI).2⟩

-- What a set does after its write, counting it and publishing it if it worked, keeps every value
-- traced.
theorem runs_setTail (hI : Traced lz comp dflt memOnly s (o ::ₘ M)) (key : String)
    (strategy : WriteStrategy) (ok : Bool) :
    Stage.Runs Host.stage (readShares lz comp dflt memOnly)
      (fun _ o' s' => o' = o ∧ Holds lz comp dflt memOnly s' o) o s (do
        Act.changeCache fun _ c => c.count fun m => m.set.sample
        if ok then Act.changeCache fun _ c => (c.publish (.set key strategy)).offerTrigger key
        return ok) := by
  refine (runs_still hI fun _ c => TieredCache.still_count c _).bind
    fun _ o' s₁ ⟨ho', ⟨M₁, hI₁⟩, _⟩ => ?_
  subst o'
  split
  · exact (runs_still hI₁ fun _ c =>
      (TieredCache.still_publish c _).trans (TieredCache.still_offerTrigger _ _)).bind
        fun _ o' s₂ ⟨ho', hH₂, _⟩ => .done ⟨ho', hH₂⟩
  · exact .done ⟨rfl, M₁, hI₁⟩

/-- A set issues itself when it begins: from its first change on, the caller's share holds it,
with the time to live it takes and the clock when it began. -/
theorem runs_setRaw (hI : Traced lz comp dflt memOnly s (.caller H ::ₘ M)) (key : String)
    (v : ByteArray) (ttlMs : Option Nat) (strategy : WriteStrategy) :
    Stage.Runs Host.stage (readShares lz comp dflt memOnly)
      (fun _ o' s' => o' = .caller (H ++ [⟨key, v, ttlMs.getD dflt, s.clock⟩]) ∧
        Holds lz comp dflt memOnly s' o')
      (.caller H) s (Act.setRaw key v ttlMs strategy) := by
  have hmem : (⟨key, v, ttlMs.getD dflt, s.clock⟩ : Issue) ∈
      H ++ [⟨key, v, ttlMs.getD dflt, s.clock⟩] := by simp
  have hsub : ∀ x ∈ H, x ∈ H ++ [⟨key, v, ttlMs.getD dflt, s.clock⟩] :=
    fun x hx => List.mem_append_left _ hx
  unfold Act.setRaw Act.look
  refine .read ?_
  simp only [Fiber.done_bind]
  rw [hI.defaultTtl]
  -- the write, by its strategy; the set is issued at its first change
  cases strategy with
  | cacheAside =>
    refine (runs_rememberIssued hI hsub hmem fun _ => le_refl _).bind
      fun _ o' s₁ ⟨ho', M₁, hI₁⟩ => ?_
    subst o'
    refine (runs_writeThrough hI₁ (fun x hx => hx) _ ⟨_, hmem, rfl, rfl⟩).bind
      fun ok o' s₂ ⟨ho', ⟨M₂, hI₂⟩, _⟩ => ?_
    simp only [ite_self] at ho'
    subst o'
    exact (runs_setTail hI₂ key .cacheAside ok).mono fun _ o' s' ⟨ho', hH'⟩ => ⟨ho', ho' ▸ hH'⟩
  | writeThrough =>
    refine (runs_writeThrough hI hsub _ ⟨_, hmem, rfl, rfl⟩).bind
      fun ok o' s₁ ⟨ho', ⟨M₁, hI₁⟩, hsame⟩ => ?_
    subst o'
    have hback : ∀ x ∈ (if memOnly then H else H ++ [⟨key, v, ttlMs.getD dflt, s.clock⟩]),
        x ∈ H ++ [⟨key, v, ttlMs.getD dflt, s.clock⟩] := by
      intro x hx
      split at hx
      exacts [hsub x hx, hx]
    refine (runs_rememberIssued hI₁ hback hmem fun hm => (congrArg Host.clock (hsame hm)).le).bind
      fun _ o' s₂ ⟨ho', M₂, hI₂⟩ => ?_
    subst o'
    exact (runs_setTail hI₂ key .writeThrough ok).mono fun _ o' s' ⟨ho', hH'⟩ => ⟨ho', ho' ▸ hH'⟩
  | writeBehind =>
    refine (runs_rememberIssued hI hsub hmem fun _ => le_refl _).bind
      fun _ o' s₁ ⟨ho', M₁, hI₁⟩ => ?_
    subst o'
    refine (runs_scheduleWrite hI₁ _ ⟨_, hmem, rfl, rfl⟩).bind
      fun _ o' s₂ ⟨ho', M₂, hI₂⟩ => ?_
    subst o'
    exact (runs_setTail hI₂ key .writeBehind true).mono fun _ o' s' ⟨ho', hH'⟩ => ⟨ho', ho' ▸ hH'⟩

-- A change that leaves every value where it was, and then an answer.
theorem runs_stillThen {β : Type} {F : Nat → TieredCache → TieredCache}
    (hI : Traced lz comp dflt memOnly s (o ::ₘ M)) (hF : ∀ now c, TieredCache.Still c (F now c))
    (b : β) :
    Stage.Runs Host.stage (readShares lz comp dflt memOnly)
      (fun _ o' s' => o' = o ∧ Holds lz comp dflt memOnly s' o) o s
      (Act.changeCache F >>= fun _ => pure b) :=
  (runs_still hI hF).bind fun _ _ _ ⟨ho', hH, _⟩ => .done ⟨ho', hH⟩

-- A change of the memory tier that keeps, touches or drops its items keeps every value traced.
theorem runs_onMemory {α : Type} {F : Nat → MemoryTier → Metrics → α × MemoryTier × Metrics}
    (hI : Traced lz comp dflt memOnly s (o ::ₘ M))
    (hF : ∀ now t m, MemoryTier.ItemsFrom t (F now t m).2.1) :
    Stage.Runs Host.stage (readShares lz comp dflt memOnly)
      (fun _ o' s' => o' = o ∧ Holds lz comp dflt memOnly s' o) o s
      (Act.onCache fun now c => c.onMemory (F now)) :=
  runs_modifyGet_all hI (fun _ hT => hT.memory (hF _ _ _)) fun hH => ⟨rfl, hH⟩

theorem runs_changeMemory {α : Type} {F : Nat → MemoryTier → Metrics → α × MemoryTier × Metrics}
    (hI : Traced lz comp dflt memOnly s (o ::ₘ M))
    (hF : ∀ now t m, MemoryTier.ItemsFrom t (F now t m).2.1) :
    Stage.Runs Host.stage (readShares lz comp dflt memOnly)
      (fun _ o' s' => o' = o ∧ Holds lz comp dflt memOnly s' o) o s
      (Act.changeCache fun now c => (c.onMemory (F now)).2) :=
  runs_modify_all hI (fun _ hT => hT.memory (hF _ _ _)) fun hH => ⟨rfl, hH⟩

theorem runs_sweep (hI : Traced lz comp dflt memOnly s (o ::ₘ M)) :
    Stage.Runs Host.stage (readShares lz comp dflt memOnly)
      (fun _ o' s' => o' = o ∧ Holds lz comp dflt memOnly s' o) o s Act.sweep :=
  runs_onMemory hI fun now t m => MemoryTier.itemsFrom_sweep t m now

theorem runs_clearLocal (hI : Traced lz comp dflt memOnly s (o ::ₘ M)) :
    Stage.Runs Host.stage (readShares lz comp dflt memOnly)
      (fun _ o' s' => o' = o ∧ Holds lz comp dflt memOnly s' o) o s Act.clearLocal :=
  runs_changeMemory hI fun _ t m => MemoryTier.itemsFrom_clear t m

theorem runs_contains (hI : Traced lz comp dflt memOnly s (o ::ₘ M)) (key : String) :
    Stage.Runs Host.stage (readShares lz comp dflt memOnly)
      (fun _ o' s' => o' = o ∧ Holds lz comp dflt memOnly s' o) o s (Act.contains key) := by
  unfold Act.contains Act.memoryOnly Act.look
  refine .read ?_
  simp only [Fiber.done_bind]
  split
  · exact .done ⟨rfl, M, hI⟩
  · refine .read ?_
    simp only [Fiber.done_bind]
    split
    · exact .done ⟨rfl, M, hI⟩
    · exact (runs_tierGet hI key).bind fun r o' s' ⟨ho', hH, _⟩ => by
        split <;> exact .done ⟨ho', hH⟩

theorem runs_delete (hI : Traced lz comp dflt memOnly s (o ::ₘ M)) (key : String) :
    Stage.Runs Host.stage (readShares lz comp dflt memOnly)
      (fun _ o' s' => o' = o ∧ Holds lz comp dflt memOnly s' o) o s (Act.delete key) := by
  unfold Act.delete Act.memoryOnly Act.look
  refine (runs_changeMemory hI fun _ t m => MemoryTier.itemsFrom_delete t m key).bind
    fun _ o' s₁ ⟨ho', M₁, hI₁⟩ => ?_
  subst o'
  refine .read ?_
  simp only [Fiber.done_bind]
  -- the removal from the distributed tier, if there is one, and then the count
  split
  · exact runs_stillThen hI₁ (fun _ c => (TieredCache.still_count c _).trans
      (TieredCache.still_publish _ _)) true
  · refine (runs_tierDelete hI₁ key).bind fun _ o' s₂ ⟨ho', M₂, hI₂⟩ => ?_
    subst o'
    exact runs_stillThen hI₂ (fun _ c => (TieredCache.still_count c _).trans
      (TieredCache.still_publish _ _)) _

theorem runs_invalidate (hI : Traced lz comp dflt memOnly s (o ::ₘ M)) (pattern : String) :
    Stage.Runs Host.stage (readShares lz comp dflt memOnly)
      (fun _ o' s' => o' = o ∧ Holds lz comp dflt memOnly s' o) o s (Act.invalidate pattern) := by
  unfold Act.invalidate Act.memoryOnly Act.look
  refine (runs_onMemory hI fun now t m => MemoryTier.itemsFrom_removeMatching t m pattern now).bind
    fun _ o' s₁ ⟨ho', M₁, hI₁⟩ => ?_
  subst o'
  refine .read ?_
  simp only [Fiber.done_bind]
  -- the removals from the distributed tier, if there is one, and then the event
  split
  · exact runs_stillThen hI₁ (fun _ c => TieredCache.still_publish c _) _
  · refine (runs_tierDeleteMatching hI₁ pattern).bind fun _ o' s₂ ⟨ho', M₂, hI₂⟩ => ?_
    subst o'
    exact runs_stillThen hI₂ (fun _ c => TieredCache.still_publish c _) _

/-- A write-behind job stores the frame it holds, which a set issued; it first waits for its turn,
so it runs safely from any state. -/
theorem runs_writeBehindJob (key : String) (frame : ByteArray) (ttl ticket : Nat) :
    Stage.Runs Host.stage (readShares lz comp dflt memOnly)
      (fun _ o' _ => (readShares lz comp dflt memOnly).Ended o') (.writing key frame) s
      (Act.writeBehindJob key frame ttl ticket) := by
  unfold Act.writeBehindJob
  refine .wait (fun _ => .writing key frame) (fun _ _ hI _ => hI) fun s₁ M₁ hI₁ _ => ?_
  simp only [Fiber.done_bind]
  -- its turn: the permit taken, the frame stored, the permit given back and the write counted
  refine (runs_still hI₁ fun _ c => TieredCache.still_writeBehind c _).bind
    fun _ o' s₂ ⟨ho', ⟨M₂, hI₂⟩, _⟩ => ?_
  subst o'
  refine (runs_tierSet hI₂ (fun _ hT => hT) ttl
    fun _ _ hT => hT.writing key frame (Multiset.mem_cons_self _ _)).bind
      fun _ o' s₃ ⟨ho', M₃, hI₃⟩ => ?_
  subst o'
  refine (runs_still hI₃ fun _ c => TieredCache.still_writeBehind c _).bind
    fun _ o' s₄ ⟨ho', ⟨M₄, hI₄⟩, _⟩ => ?_
  subst o'
  split
  · refine (runs_still hI₄ fun _ c => TieredCache.still_count c _).bind
      fun _ o' s₅ ⟨ho', ⟨M₅, hI₅⟩, _⟩ => ?_
    subst o'
    exact (runs_still hI₅ fun _ c => TieredCache.still_writeBehind c _).mono fun _ _ _ _ => trivial
  · exact (runs_still hI₄ fun _ c => TieredCache.still_writeBehind c _).mono fun _ _ _ _ => trivial

-- Every job a fiber may ask for runs safely from the share it is handed.
theorem poised_readJobs : ∀ j, (readShares lz comp dflt memOnly).Spawnable j →
    Host.stage.Poised (readShares lz comp dflt memOnly) ((readShares lz comp dflt memOnly).hold j)
      (Host.stage.launch j)
  | .writeBehind key frame ttl ticket, _ => fun _ _ _ => runs_writeBehindJob key frame ttl ticket
  | .warm .., h => h.elim
  | .loop _, h => h.elim

end Calls

-- A new cache holds nothing, so it is traced with the caller holding no set.
theorem traced_create (lz : BlockCodec) (cfg : CacheConfig) (backend : Bool) {h : Host}
    (hcache : h.cache = TieredCache.create lz cfg backend) (hjobs : h.requested = []) :
    Traced lz cfg.compression (cfg.defaultTtlSecs * 1000) (!backend) h {.caller []} where
  requested := hjobs
  codec := by rw [hcache]; rfl
  compression := by rw [hcache]; rfl
  defaultTtl := by rw [hcache]; rfl
  memoryOnly := by rw [hcache]; cases backend <;> rfl
  items e he := by
    rw [hcache] at he
    simp [TieredCache.create, MemoryTier.create] at he
  frames d hd e he := by
    rw [hcache] at hd
    cases backend <;> simp only [TieredCache.create, Bool.false_eq_true, if_false, if_true,
      reduceCtorEq, Option.some.injEq] at hd
    subst hd
    simp [DistributedTier.create] at he
  writing k f hw := by simp at hw
  callers := by decide

end TierCache
