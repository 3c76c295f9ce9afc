import Mathlib
import TierCache.Proofs.IssuedValues
import TierCache.Proofs.MemoryRefinement

/-!
# The distributed tier mirrors the caller's changes

The caller's ledger of its last change of each key, and the invariant that the store shows it
(`Mirrors`).

Main statements: one spec per call of the cache, and `runs_writeBehindJob`.
-/

namespace TierCache

/-! ## The store, key by key -/

namespace Backend

theorem lookup_without (b : Backend) (key k : String) :
    (b.without key).store.lookup k = if k = key then none else b.store.lookup k := by
  refine (lookup_filter_key b.store (· != key) k).trans ?_
  by_cases hk : k = key <;> simp [hk]

theorem lookup_foldl_without (l : List (String × StoredFrame)) (b : Backend) (k : String) :
    (l.foldl (fun b (key, _) => b.without key) b).store.lookup k =
      if k ∈ l.map (·.1) then none else b.store.lookup k := by
  induction l generalizing b with
  | nil => simp
  | cons e l ih =>
    obtain ⟨key, sf⟩ := e
    rw [List.foldl_cons, ih, lookup_without]
    by_cases h₁ : k ∈ l.map (·.1) <;> by_cases h₂ : k = key <;> simp [h₁, h₂]

-- A set stores its frame under its key, with its time to live from the time it is made.
theorem lookup_setex (b : Backend) (key k : String) (frame : ByteArray) (ttl now : Nat) :
    (b.act (.setex key frame ttl) now).1.store.lookup k =
      if k = key then some ⟨frame, now + ttl⟩ else b.store.lookup k := by
  simp only [act, List.lookup_append]
  rw [lookup_without]
  by_cases hk : k = key
  · simp [hk, List.lookup]
  · have hne : (k == key) = false := beq_false_of_ne hk
    simp [hk, hne, List.lookup]

theorem lookup_delete (b : Backend) (key k : String) (now : Nat) :
    (b.act (.delete key) now).1.store.lookup k = if k = key then none else b.store.lookup k :=
  lookup_without b key k

-- A removal by a glob empties every key it matches.
theorem lookup_deleteMatching (b : Backend) (pattern k : String) (now : Nat) :
    (b.act (.deleteMatching pattern) now).1.store.lookup k =
      if globMatch pattern k then none else b.store.lookup k := by
  simp only [act]
  rw [lookup_foldl_without]
  by_cases hk : globMatch pattern k = true
  · rw [if_pos hk]
    split
    · rfl
    · next hmem =>
      -- a key the glob matches and the store holds is among those removed
      refine List.lookup_eq_none_iff.2 fun e he => ?_
      obtain ⟨key, sf⟩ := e
      by_contra hne
      obtain rfl : k = key := by simpa using hne
      exact hmem (List.mem_map.2 ⟨(k, sf), List.mem_filter.2 ⟨he, hk⟩, rfl⟩)
  · rw [if_neg hk, if_neg]
    intro hin
    obtain ⟨⟨key, sf⟩, he, rfl⟩ := List.mem_map.1 hin
    exact hk (List.mem_filter.1 he).2

-- A read leaves every key but its own, and drops its own only when its frame has expired.
theorem lookup_get (b : Backend) (key k : String) (now : Nat) :
    (b.act (.get key) now).1.store.lookup k = b.store.lookup k ∨
      (k = key ∧ (b.act (.get key) now).1.store.lookup k = none ∧
        ∃ sf, b.store.lookup k = some sf ∧ sf.expires ≤ now) := by
  unfold act
  dsimp only
  split
  · next sf hsf =>
    split
    · exact .inl rfl
    · next hlive =>
      by_cases hk : k = key
      · subst hk
        exact .inr ⟨rfl, by rw [lookup_without]; simp, sf, hsf, Nat.le_of_not_gt hlive⟩
      · exact .inl (by rw [lookup_without]; simp [hk])
  · exact .inl rfl

theorem foldl_without_store (l : List (String × StoredFrame)) (b : Backend) :
    ∃ store, l.foldl (fun b (key, _) => b.without key) b = { b with store } := by
  induction l generalizing b with
  | nil => exact ⟨b.store, rfl⟩
  | cons e l ih =>
    obtain ⟨store, h⟩ := ih (b.without e.1)
    exact ⟨store, by rw [List.foldl_cons, h]; rfl⟩

-- A call changes nothing of the backend but its store.
theorem act_store (b : Backend) (c : BackendCall) (now : Nat) :
    ∃ store, (b.act c now).1 = { b with store } := by
  cases c with
  | get key =>
    simp only [act]
    split
    · split
      · exact ⟨b.store, rfl⟩
      · exact ⟨_, rfl⟩
    · exact ⟨b.store, rfl⟩
  | setex key frame ttl => exact ⟨_, rfl⟩
  | delete key => exact ⟨_, rfl⟩
  | deleteMatching pattern => exact foldl_without_store _ b
  | ping => exact ⟨b.store, rfl⟩

end Backend

/-! ## A tier that answers every call -/

namespace DistributedTier

/-- A tier every call of which goes through and succeeds: its backend fails on none and answers
within the request timeout, and its breaker is not open. -/
structure Answering (d : DistributedTier) : Prop where
  working : d.backend.failing = false
  prompt : ∀ ms, d.backend.latency = some ms → ms ≤ d.timeoutMs
  closed : d.breaker.state ≠ .open

variable {d : DistributedTier}

-- Such a tier admits every call, and in time.
theorem Answering.start (hd : d.Answering) (c : BackendCall) (now : Nat) :
    (d.start c now).1.Answering ∧ ∃ a, (d.start c now).2 = some a ∧ a.timedOut = false := by
  have hp : d.breaker.permits now = (true, d.breaker) := by
    have hs := hd.closed
    unfold Breaker.permits
    split <;> simp_all
  have htimely : (d.backend.latency.any fun ms => decide (ms > d.timeoutMs)) = false := by
    cases hl : d.backend.latency with
    | none => rfl
    | some ms => simpa using hd.prompt ms hl
  unfold DistributedTier.start
  simp only [hp]
  exact ⟨⟨hd.working, hd.prompt, hd.closed⟩, _, rfl, htimely⟩

-- An admitted call that does not time out acts on the backend and closes the breaker.
theorem Answering.complete (hd : d.Answering) (m : Metrics) {a : Admitted}
    (ha : a.timedOut = false) (now : Nat) :
    d.complete m a now =
      ({ d with backend := (d.backend.act a.call now).1, breaker := d.breaker.success }, m,
        .ok (d.backend.act a.call now).2) := by
  unfold DistributedTier.complete DistributedTier.outcome
  simp only [ha, hd.working]
  rfl

-- A new tier answers every call: its backend neither fails nor waits, and its breaker is closed.
theorem answering_create (threshold recoverySecs timeoutMs : Nat) :
    (create threshold recoverySecs timeoutMs).Answering where
  working := rfl
  prompt _ h := nomatch h
  closed := nofun

theorem Answering.act (hd : d.Answering) (c : BackendCall) (now : Nat) :
    Answering { d with backend := (d.backend.act c now).1, breaker := d.breaker.success } := by
  obtain ⟨store, hstore⟩ := d.backend.act_store c now
  exact ⟨by simp [hstore, hd.working], by simpa [hstore] using hd.prompt, by simp [Breaker.success]⟩

end DistributedTier

/-! ## Calls to a tier that answers -/

namespace Act

variable {h : Host} {d : DistributedTier}

theorem startCall_some (hd : h.cache.distributed = some d) (call : BackendCall) :
    startCall call h = ((d.start call h.clock).2,
      { h with cache := { h.cache with distributed := some (d.start call h.clock).1 } }) := by
  unfold startCall
  rw [hd]

-- An answering tier admits every call, and in time.
theorem startCall_answering (hd : h.cache.distributed = some d) (hans : d.Answering)
    {call : BackendCall} {a : DistributedTier.Admitted} (ha : (startCall call h).1 = some a) :
    a.call = call ∧ a.timedOut = false := by
  obtain ⟨-, a', ha', htimely⟩ := hans.start call h.clock
  rw [startCall_some hd, ha'] at ha
  cases ha
  exact ⟨startCall_call (by rw [startCall_some hd, ha']), htimely⟩

end Act

/-- The host once the tier `d`, answering every call, served `call` at the clock's time: the
backend acted on it and the breaker closed. -/
def Host.served (h : Host) (d : DistributedTier) (call : BackendCall) : Host :=
  let d' : DistributedTier :=
    { d with backend := (d.backend.act call h.clock).1, breaker := d.breaker.success }
  { h with cache := { h.cache with distributed := some d' } }

namespace Act

variable {h : Host} {d : DistributedTier}

theorem endCall_answering (hd : h.cache.distributed = some d) (hans : d.Answering)
    {a : DistributedTier.Admitted} (ha : a.timedOut = false) :
    endCall a h = (.ok (d.backend.act a.call h.clock).2, h.served d a.call) := by
  unfold endCall
  rw [hd]
  dsimp only
  rw [hans.complete _ ha]
  rfl

end Act

/-! ## The caller's changes and what the store shows of them -/

/-- A change the caller made of a key in the distributed tier: a set of a value with a time to
live, begun when the clock read `start`, or a removal. -/
inductive Change where
  | stores (value : ByteArray) (ttlMs : Nat) (start : Nat)
  | removes
  deriving DecidableEq

/-- The store's entry for a key shows a change of it when the clock reads `now`: after a set, the
set's frame, expiring no sooner than the set's time to live from when it began, or nothing once
that time has run out; after a removal, nothing. -/
def Reflects (lz : BlockCodec) (comp : Compression) (now : Nat) : Change → Option StoredFrame → Prop
  | .stores v ttl start, e =>
    (∃ sf, e = some sf ∧ sf.frame = (Frame.encode lz comp v).2 ∧ start + ttl ≤ sf.expires) ∨
      (start + ttl ≤ now ∧ e = none)
  | .removes, e => e = none

namespace Reflects

variable {lz : BlockCodec} {comp : Compression} {now : Nat} {c : Change} {e : Option StoredFrame}

theorem later (h : Reflects lz comp now c e) {now' : Nat} (hle : now ≤ now') :
    Reflects lz comp now' c e := by
  cases c with
  | stores v ttl start =>
    rcases h with hheld | ⟨hgone, he⟩
    · exact .inl hheld
    · exact .inr ⟨Nat.le_trans hgone hle, he⟩
  | removes => exact h

-- A read drops only an entry that has expired, so what it leaves still shows the change.
theorem get {e' : Option StoredFrame} (h : Reflects lz comp now c e)
    (he' : e' = e ∨ e' = none ∧ ∃ sf, e = some sf ∧ sf.expires ≤ now) :
    Reflects lz comp now c e' := by
  rcases he' with rfl | ⟨rfl, sf, rfl, hexp⟩
  · exact h
  · cases c with
    | stores v ttl start =>
      rcases h with ⟨sf', hsf', -, hlive⟩ | ⟨-, hnone⟩
      · cases hsf'
        exact .inr ⟨Nat.le_trans hlive hexp, rfl⟩
      · cases hnone
    | removes => cases h

end Reflects

/-! ## Shares -/

/-- How far a write-behind job has come: its write not made yet, made, or counted off the
pending writes. -/
inductive Phase where
  | waiting
  | written
  | finished

/-- What the caller holds: the last change it made of each key, the keys it set by write-behind
since it last flushed, the pending writes it has counted and not yet started, and a time the
clock has reached. -/
structure Ledger where
  last : String → Option Change
  unflushed : String → Prop
  credit : Nat
  since : Nat

/-- What a fiber holds: the caller its ledger; a write-behind job the key, frame and time to live
it writes, and how far it has come. -/
inductive Part where
  | caller (l : Ledger)
  | job (key : String) (frame : ByteArray) (ttlMs : Nat) (phase : Phase)

namespace Part

/-- The pending writes a share accounts for: the caller those it counted, a job its own until it
is counted off. -/
def owes : Part → Nat
  | caller l => l.credit
  | job _ _ _ .finished => 0
  | job .. => 1

def isCaller : Part → Bool
  | caller _ => true
  | job .. => false

end Part

/-- A job of `J` waits to write `k`. -/
def Waits (J : Multiset Part) (k : String) : Prop := ∃ f t, Part.job k f t .waiting ∈ J

theorem waits_cons {key k : String} {f : ByteArray} {t : Nat} {ph : Phase} {J : Multiset Part} :
    Waits (.job key f t ph ::ₘ J) k ↔ (k = key ∧ ph = .waiting) ∨ Waits J k := by
  constructor
  · rintro ⟨f', t', hm⟩
    rcases Multiset.mem_cons.1 hm with heq | hJ
    · cases heq
      exact .inl ⟨rfl, rfl⟩
    · exact .inr ⟨f', t', hJ⟩
  · rintro (⟨rfl, rfl⟩ | ⟨f', t', hJ⟩)
    · exact ⟨f, t, Multiset.mem_cons_self _ _⟩
    · exact ⟨f', t', Multiset.mem_cons_of_mem hJ⟩

/-- The tier mirrors the caller's ledger `l` beside the jobs `J`: no job is asked for and not
started; the settings are `comp` and `dflt`; the tier answers every call, and its store shows the
last change of every key no job waits to write; a waiting job writes the last set of its key,
which is unflushed; the clock has reached `since`, and no set of the ledger began after it; and
the pending writes cover the caller's count and every job not counted off. -/
structure Mirrors (lz : BlockCodec) (comp : Compression) (dflt : Nat) (h : Host) (l : Ledger) (J : Multiset Part) :
    Prop where
  requested : h.requested = []
  codec : h.cache.codec = lz
  compression : h.cache.compression = comp
  defaultTtl : h.cache.defaultTtlMs = dflt
  jobs : ∀ x ∈ J, x.isCaller = false
  mirrors : ∃ d, h.cache.distributed = some d ∧ d.Answering ∧
    ∀ k c, l.last k = some c → ¬ Waits J k → Reflects lz comp h.clock c (d.backend.store.lookup k)
  queued : ∀ k f t, Part.job k f t .waiting ∈ J →
    l.unflushed k ∧ ∃ v start, l.last k = some (.stores v t start) ∧ (Frame.encode lz comp v).2 = f
  reached : l.since ≤ h.clock
  started : ∀ k v t start, l.last k = some (.stores v t start) → start ≤ l.since
  owed : l.credit + (J.map Part.owes).sum ≤ h.cache.writeBehind.pending

/-- The shares are the caller's ledger beside jobs, and the tier mirrors the ledger. -/
def Mirrored (lz : BlockCodec) (comp : Compression) (dflt : Nat) (h : Host) (S : Multiset Part) : Prop :=
  ∃ l J, S = .caller l ::ₘ J ∧ Mirrors lz comp dflt h l J

/-- The caller holds its ledger; a write-behind job starts waiting to write its frame. -/
def mirrorShares (lz : BlockCodec) (comp : Compression) (dflt : Nat) : Sharing Host Job Part where
  Inv := Mirrored lz comp dflt
  hold
    | .writeBehind k f t _ => .job k f t .waiting
    | _ => .job "" .empty 0 .finished
  Spawnable
    | .writeBehind .. => True
    | _ => False
  Ended _ := True

/-- The tier is mirrored with `o` among the shares. -/
def Kept (lz : BlockCodec) (comp : Compression) (dflt : Nat) (h : Host) (o : Part) : Prop :=
  ∃ M, Mirrored lz comp dflt h (o ::ₘ M)

section Shares

variable {lz : BlockCodec} {comp : Compression} {dflt : Nat} {h : Host} {l : Ledger} {M : Multiset Part}

-- With the caller's share in front, the other shares are the jobs.
theorem mirrored_caller : Mirrored lz comp dflt h (.caller l ::ₘ M) ↔ Mirrors lz comp dflt h l M := by
  constructor
  · rintro ⟨l', J, hS, hI⟩
    rcases Multiset.mem_cons.1 (hS ▸ Multiset.mem_cons_self (Part.caller l) M) with heq | hJ
    · cases heq
      rwa [(Multiset.cons_inj_right _).1 hS]
    · exact absurd (hI.jobs _ hJ) (by simp [Part.isCaller])
  · exact fun hI => ⟨l, M, rfl, hI⟩

-- Beside a job's share stand the caller's ledger and the other jobs.
theorem mirrored_job {x : Part} (hx : x.isCaller = false) (hI : Mirrored lz comp dflt h (x ::ₘ M)) :
    ∃ l J, M = .caller l ::ₘ J ∧ Mirrors lz comp dflt h l (x ::ₘ J) := by
  obtain ⟨l, J₀, hS, hm⟩ := hI
  have hmem : x ∈ J₀ := by
    rcases Multiset.mem_cons.1 (hS ▸ Multiset.mem_cons_self x M) with rfl | hJ
    · simp [Part.isCaller] at hx
    · exact hJ
  obtain ⟨J, rfl⟩ := Multiset.exists_cons_of_mem hmem
  rw [Multiset.cons_swap] at hS
  exact ⟨l, J, (Multiset.cons_inj_right _).1 hS, hm⟩

theorem host_requested_nil (hnil : h.requested = []) : { h with requested := [] } = h := by
  cases h
  simp_all

-- A change that asks for no job keeps the invariant when it keeps it whatever the others hold.
theorem keeps_of_mirrored {o o' : Part} {g : Host → Host}
    (hg : ∀ M, Mirrored lz comp dflt h (o ::ₘ M) → Mirrored lz comp dflt (g h) (o' ::ₘ M)) :
    Stage.Keeps Host.stage (mirrorShares lz comp dflt) o g h o' := by
  intro M hI
  have hI' := hg M hI
  have hnil : (g h).requested = [] := by
    obtain ⟨_, _, _, hm⟩ := hI'
    exact hm.requested
  simp only [Host.stage_takeJobs, hnil, List.not_mem_nil, false_imp_iff, implies_true,
    List.map_nil, Multiset.coe_nil, Multiset.add_zero, true_and, host_requested_nil hnil]
  exact hI'

theorem keeps_caller {l' : Ledger} {g : Host → Host}
    (hg : ∀ J, Mirrors lz comp dflt h l J → Mirrors lz comp dflt (g h) l' J) :
    Stage.Keeps Host.stage (mirrorShares lz comp dflt) (.caller l) g h (.caller l') :=
  keeps_of_mirrored fun _ hI => mirrored_caller.2 (hg _ (mirrored_caller.1 hI))

theorem keeps_job {x x' : Part} (hx : x.isCaller = false) {g : Host → Host}
    (hg : ∀ l J, Mirrors lz comp dflt h l (x ::ₘ J) → Mirrors lz comp dflt (g h) l (x' ::ₘ J)) :
    Stage.Keeps Host.stage (mirrorShares lz comp dflt) x g h x' :=
  keeps_of_mirrored fun _ hI => by
    obtain ⟨l, J, rfl, hm⟩ := mirrored_job hx hI
    exact ⟨l, x' ::ₘ J, Multiset.cons_swap _ _ _, hg l J hm⟩

end Shares

/-! ## What each change keeps -/

namespace TieredCache

/-- A change of the cache that leaves the distributed tier, the frame settings, the default time
to live and the count of pending writes. -/
def Beside (c c' : TieredCache) : Prop :=
  c'.distributed = c.distributed ∧ c'.codec = c.codec ∧ c'.compression = c.compression ∧
    c'.defaultTtlMs = c.defaultTtlMs ∧ c'.writeBehind.pending = c.writeBehind.pending

theorem Beside.trans {c₁ c₂ c₃ : TieredCache} (h₁ : Beside c₁ c₂) (h₂ : Beside c₂ c₃) :
    Beside c₁ c₃ :=
  ⟨h₂.1.trans h₁.1, h₂.2.1.trans h₁.2.1, h₂.2.2.1.trans h₁.2.2.1, h₂.2.2.2.1.trans h₁.2.2.2.1,
    h₂.2.2.2.2.trans h₁.2.2.2.2⟩

theorem beside_count (c : TieredCache) (f : Metrics → Metrics) : Beside c (c.count f) :=
  ⟨rfl, rfl, rfl, rfl, rfl⟩

theorem beside_publish (c : TieredCache) (e : CacheEvent) : Beside c (c.publish e) :=
  ⟨rfl, rfl, rfl, rfl, rfl⟩

theorem beside_offerTrigger (c : TieredCache) (key : String) : Beside c (c.offerTrigger key) := by
  unfold offerTrigger
  split
  · exact ⟨rfl, rfl, rfl, rfl, rfl⟩
  · split
    · exact ⟨rfl, rfl, rfl, rfl, rfl⟩
    · exact ⟨rfl, rfl, rfl, rfl, rfl⟩

theorem beside_onMemory {α : Type} (c : TieredCache)
    (f : MemoryTier → Metrics → α × MemoryTier × Metrics) : Beside c (c.onMemory f).2 :=
  ⟨rfl, rfl, rfl, rfl, rfl⟩

theorem beside_writeBehind (c : TieredCache) (w : WriteBehind)
    (hw : w.pending = c.writeBehind.pending) : Beside c { c with writeBehind := w } :=
  ⟨rfl, rfl, rfl, rfl, hw⟩

theorem beside_remember (c : TieredCache) (key : String) (value : ByteArray) (ttlMs : Nat)
    (origin : Origin) (now : Nat) : Beside c (c.remember key value ttlMs origin now) :=
  ⟨rfl, rfl, rfl, rfl, rfl⟩

end TieredCache

section Changes

variable {lz : BlockCodec} {comp : Compression} {dflt : Nat} {h h' : Host} {l : Ledger} {J : Multiset Part}
  {d : DistributedTier}

namespace Mirrors

theorem tier (hI : Mirrors lz comp dflt h l J) (hd : h.cache.distributed = some d) :
    d.Answering ∧
      ∀ k c, l.last k = some c → ¬ Waits J k → Reflects lz comp h.clock c (d.backend.store.lookup k) := by
  obtain ⟨d', hd', hans, hmir⟩ := hI.mirrors
  rw [hd] at hd'
  cases hd'
  exact ⟨hans, hmir⟩

-- A change that leaves the tier, the settings, the pending writes and the clock.
theorem beside (hI : Mirrors lz comp dflt h l J) (hreq : h'.requested = [])
    (hclock : h'.clock = h.clock) (hc : TieredCache.Beside h.cache h'.cache) :
    Mirrors lz comp dflt h' l J := by
  obtain ⟨hdist, hcodec, hcomp, hdflt, hpend⟩ := hc
  obtain ⟨d, hd, hans, hmir⟩ := hI.mirrors
  refine { hI with
    requested := hreq
    codec := hcodec.trans hI.codec
    compression := hcomp.trans hI.compression
    defaultTtl := hdflt.trans hI.defaultTtl
    mirrors := ⟨d, hdist.trans hd, hans, ?_⟩
    reached := hclock ▸ hI.reached
    owed := hpend ▸ hI.owed }
  rw [hclock]
  exact hmir

theorem tick (hI : Mirrors lz comp dflt h l J) {t : Nat} (ht : h.clock ≤ t) :
    Mirrors lz comp dflt { h with clock := t } l J := by
  obtain ⟨d, hd, hans, hmir⟩ := hI.mirrors
  exact { hI with
    mirrors := ⟨d, hd, hans, fun k c hc hw => (hmir k c hc hw).later ht⟩
    reached := Nat.le_trans hI.reached ht }

-- The caller may note that the clock has reached its reading.
theorem restamp (hI : Mirrors lz comp dflt h l J) : Mirrors lz comp dflt h { l with since := h.clock } J :=
  { hI with
    reached := le_refl _
    started := fun k v t start hc => Nat.le_trans (hI.started k v t start hc) hI.reached }

-- Starting a call moves only the breaker and the backend's counts.
theorem startCall (hI : Mirrors lz comp dflt h l J) (call : BackendCall) :
    Mirrors lz comp dflt (Act.startCall call h).2 l J := by
  obtain ⟨d, hd, hans, hmir⟩ := hI.mirrors
  rw [Act.startCall_some hd]
  refine { hI with mirrors := ⟨_, rfl, (hans.start call h.clock).1, fun k c hc hw => ?_⟩ }
  rw [DistributedTier.start_store]
  exact hmir k c hc hw

-- A read leaves every entry, but drops its own once it has expired.
theorem served_get (hI : Mirrors lz comp dflt h l J) (hd : h.cache.distributed = some d)
    (key : String) : Mirrors lz comp dflt (h.served d (.get key)) l J := by
  obtain ⟨hans, hmir⟩ := hI.tier hd
  refine { hI with mirrors := ⟨_, rfl, hans.act _ _, fun k c hc hw => (hmir k c hc hw).get ?_⟩ }
  rcases Backend.lookup_get d.backend key k h.clock with hsame | ⟨-, hnone, hexp⟩
  · exact .inl hsame
  · exact .inr ⟨hnone, hexp⟩

/-- The caller's set of a key it has not set by write-behind since its last flush: the store then
holds the set's frame, which expires no sooner than the set's time to live from `since`. -/
theorem served_set (hI : Mirrors lz comp dflt h l J) (hd : h.cache.distributed = some d)
    {key : String} (hfree : ¬ l.unflushed key) (v : ByteArray) (ttl : Nat) :
    Mirrors lz comp dflt (h.served d (.setex key (Frame.encode lz comp v).2 ttl))
      { l with last := Function.update l.last key (some (.stores v ttl l.since)) } J := by
  obtain ⟨hans, hmir⟩ := hI.tier hd
  refine { hI with
    mirrors := ⟨_, rfl, hans.act _ _, fun k c hc hw => ?_⟩
    queued := fun k f t hk => ?_
    started := fun k v' t start hc => ?_ }
  · -- the key set shows the set; every other key is as it was
    change Reflects lz comp h.clock c ((d.backend.act (.setex key _ ttl) h.clock).1.store.lookup k)
    rw [Backend.lookup_setex]
    by_cases hkey : k = key
    · subst hkey
      simp only [Function.update_self, Option.some.injEq] at hc
      subst hc
      rw [if_pos rfl]
      exact .inl ⟨_, rfl, rfl, Nat.add_le_add_right hI.reached ttl⟩
    · rw [if_neg hkey]
      simp only [Function.update_of_ne hkey] at hc
      exact hmir k c hc hw
  · -- a waiting job writes a key the caller has not flushed, so not this one
    obtain ⟨hun, hlast⟩ := hI.queued k f t hk
    have hkey : k ≠ key := fun hkey => hfree (hkey ▸ hun)
    exact ⟨hun, by simpa only [Function.update_of_ne hkey] using hlast⟩
  · by_cases hkey : k = key
    · subst hkey
      simp only [Function.update_self, Option.some.injEq, Change.stores.injEq] at hc
      exact hc.2.2 ▸ le_refl _
    · simp only [Function.update_of_ne hkey] at hc
      exact hI.started k v' t start hc

/-- The caller's removal of the keys `gone` picks, none of which it has set by write-behind since
its last flush: the store then holds nothing for them. -/
theorem served_removal (hI : Mirrors lz comp dflt h l J) (hd : h.cache.distributed = some d)
    {call : BackendCall} {gone : String → Prop} [DecidablePred gone]
    (hfree : ∀ k, gone k → ¬ l.unflushed k)
    (hstore : ∀ k, (d.backend.act call h.clock).1.store.lookup k =
      if gone k then none else d.backend.store.lookup k) :
    Mirrors lz comp dflt (h.served d call)
      { l with last := fun k => if gone k then some .removes else l.last k } J := by
  obtain ⟨hans, hmir⟩ := hI.tier hd
  refine { hI with
    mirrors := ⟨_, rfl, hans.act _ _, fun k c hc hw => ?_⟩
    queued := fun k f t hk => ?_
    started := fun k v t start hc => ?_ }
  · change Reflects lz comp h.clock c ((d.backend.act call h.clock).1.store.lookup k)
    rw [hstore]
    by_cases hk : gone k
    · simp only [if_pos hk, Option.some.injEq] at hc ⊢
      subst hc
      rfl
    · simp only [if_neg hk] at hc ⊢
      exact hmir k c hc hw
  · obtain ⟨hun, hlast⟩ := hI.queued k f t hk
    have hk : ¬ gone k := fun hk => hfree k hk hun
    exact ⟨hun, by simpa only [if_neg hk] using hlast⟩
  · by_cases hk : gone k
    · simp [if_pos hk] at hc
    · simp only [if_neg hk] at hc
      exact hI.started k v t start hc

/-- A job's write of the caller's last set of its key: the store then holds that set's frame. -/
theorem served_job {key : String} {frame : ByteArray} {ttl : Nat}
    (hI : Mirrors lz comp dflt h l (.job key frame ttl .waiting ::ₘ J))
    (hd : h.cache.distributed = some d) :
    Mirrors lz comp dflt (h.served d (.setex key frame ttl)) l (.job key frame ttl .written ::ₘ J) := by
  obtain ⟨hans, hmir⟩ := hI.tier hd
  obtain ⟨-, v, start, hlast, hframe⟩ := hI.queued key frame ttl (Multiset.mem_cons_self _ _)
  refine { hI with
    jobs := fun x hx => ?_
    mirrors := ⟨_, rfl, hans.act _ _, fun k c hc hw => ?_⟩
    queued := fun k f t hk => ?_
    owed := by
      have howed := hI.owed
      simp only [Multiset.map_cons, Multiset.sum_cons, Part.owes] at howed ⊢
      exact howed }
  · rcases Multiset.mem_cons.1 hx with rfl | hx
    · rfl
    · exact hI.jobs x (Multiset.mem_cons_of_mem hx)
  · change Reflects lz comp h.clock c ((d.backend.act (.setex key frame ttl) h.clock).1.store.lookup k)
    rw [Backend.lookup_setex]
    by_cases hkey : k = key
    · -- the frame written is that of the caller's last set, which began before now
      subst hkey
      rw [hlast, Option.some.injEq] at hc
      subst hc
      rw [if_pos rfl]
      have hstart : start ≤ h.clock := Nat.le_trans (hI.started k v ttl start hlast) hI.reached
      exact .inl ⟨_, rfl, hframe.symm, Nat.add_le_add_right hstart ttl⟩
    · rw [if_neg hkey]
      refine hmir k c hc fun hw' => hw ?_
      rcases waits_cons.1 hw' with ⟨hk, -⟩ | hJ
      · exact absurd hk hkey
      · exact waits_cons.2 (.inr hJ)
  · rcases Multiset.mem_cons.1 hk with heq | hk
    · cases heq
    · exact hI.queued k f t (Multiset.mem_cons_of_mem hk)

-- A job counted off the pending writes once its write is made.
theorem finish {key : String} {frame : ByteArray} {ttl : Nat}
    (hI : Mirrors lz comp dflt h l (.job key frame ttl .written ::ₘ J)) :
    Mirrors lz comp dflt { h with cache := { h.cache with writeBehind :=
        { h.cache.writeBehind with pending := h.cache.writeBehind.pending - 1 } } }
      l (.job key frame ttl .finished ::ₘ J) := by
  obtain ⟨d, hd, hans, hmir⟩ := hI.mirrors
  have hwaits : ∀ k, Waits (.job key frame ttl .finished ::ₘ J) k ↔
      Waits (.job key frame ttl .written ::ₘ J) k := by
    intro k
    simp [waits_cons]
  refine { hI with
    jobs := fun x hx => ?_
    mirrors := ⟨d, hd, hans, fun k c hc hw => hmir k c hc (by rwa [← hwaits])⟩
    queued := fun k f t hk => ?_
    owed := ?_ }
  · rcases Multiset.mem_cons.1 hx with rfl | hx
    · rfl
    · exact hI.jobs x (Multiset.mem_cons_of_mem hx)
  · rcases Multiset.mem_cons.1 hk with heq | hk
    · cases heq
    · exact hI.queued k f t (Multiset.mem_cons_of_mem hk)
  · have howed := hI.owed
    simp only [Multiset.map_cons, Multiset.sum_cons, Part.owes] at howed ⊢
    omega

-- A write-behind write counted as pending before its job is asked for.
theorem schedule (hI : Mirrors lz comp dflt h l J) :
    Mirrors lz comp dflt
      { h with cache := { h.cache with
          writeBehind := { h.cache.writeBehind with
            pending := h.cache.writeBehind.pending + 1, nextTicket := h.cache.writeBehind.nextTicket + 1 }
          metrics := h.cache.metrics.writeBehind } }
      { l with credit := l.credit + 1 } J :=
  { hI with owed := by have := hI.owed; dsimp only; omega }

/-- The job of the caller's write-behind set of a key it has not set by write-behind since its
last flush joins, waiting to write the set's frame; the caller's count of pending writes passes
to it. -/
theorem spawn (hI : Mirrors lz comp dflt h l J) (hcredit : 0 < l.credit) {key : String}
    (hfree : ¬ l.unflushed key) (v : ByteArray) (ttl : Nat) :
    Mirrors lz comp dflt h
      { l with
        last := Function.update l.last key (some (.stores v ttl l.since))
        unflushed := fun k => l.unflushed k ∨ k = key
        credit := l.credit - 1 }
      (.job key (Frame.encode lz comp v).2 ttl .waiting ::ₘ J) := by
  obtain ⟨d, hd, hans, hmir⟩ := hI.mirrors
  refine { hI with
    jobs := fun x hx => ?_
    mirrors := ⟨d, hd, hans, fun k c hc hw => ?_⟩
    queued := fun k f t hk => ?_
    started := fun k v' t start hc => ?_
    owed := ?_ }
  · rcases Multiset.mem_cons.1 hx with rfl | hx
    · rfl
    · exact hI.jobs x hx
  · -- the key set now waits for its job; every other key is as it was
    have hkey : k ≠ key := fun hkey => hw (waits_cons.2 (.inl ⟨hkey, rfl⟩))
    simp only [Function.update_of_ne hkey] at hc
    exact hmir k c hc fun hJ => hw (waits_cons.2 (.inr hJ))
  · rcases Multiset.mem_cons.1 hk with heq | hk
    · cases heq
      exact ⟨.inr rfl, v, l.since, Function.update_self _ _ _, rfl⟩
    · obtain ⟨hun, hlast⟩ := hI.queued k f t hk
      have hkey : k ≠ key := fun hkey => hfree (hkey ▸ hun)
      exact ⟨.inl hun, by simpa only [Function.update_of_ne hkey] using hlast⟩
  · by_cases hkey : k = key
    · subst hkey
      simp only [Function.update_self, Option.some.injEq, Change.stores.injEq] at hc
      exact hc.2.2 ▸ le_refl _
    · simp only [Function.update_of_ne hkey] at hc
      exact hI.started k v' t start hc
  · have howed := hI.owed
    simp only [Multiset.map_cons, Multiset.sum_cons, Part.owes]
    omega

-- Once no write is pending, no job waits, and the caller has nothing unflushed.
theorem flushed (hI : Mirrors lz comp dflt h l J) (hidle : h.cache.writeBehind.pending = 0) :
    Mirrors lz comp dflt h { l with unflushed := fun _ => False } J :=
  { hI with
    queued := fun k f t hk => by
      have howes : Part.owes (.job k f t .waiting) ≤ (J.map Part.owes).sum :=
        Multiset.le_sum_of_mem (Multiset.mem_map_of_mem _ hk)
      have howed := hI.owed
      simp only [Part.owes] at howes
      omega }

end Mirrors

end Changes

/-- The keys an invalidation removes from the distributed tier: those its glob matches, or the
key it names when it has no glob characters. -/
def invalidates (pattern k : String) : Bool :=
  if Glob.isPattern pattern then globMatch pattern k else k == pattern

/-! ## Every call keeps the tier mirrored -/

namespace Mirrored

variable {lz : BlockCodec} {comp : Compression} {dflt : Nat} {h s : Host} {S M : Multiset Part} {o : Part}
  {d : DistributedTier}

theorem answering (hI : Mirrored lz comp dflt h S) : ∃ d, h.cache.distributed = some d ∧ d.Answering := by
  obtain ⟨_, _, -, hm⟩ := hI
  obtain ⟨d, hd, hans, -⟩ := hm.mirrors
  exact ⟨d, hd, hans⟩

theorem startCall (hI : Mirrored lz comp dflt h S) (call : BackendCall) :
    Mirrored lz comp dflt (Act.startCall call h).2 S := by
  obtain ⟨l, J, hS, hm⟩ := hI
  exact ⟨l, J, hS, hm.startCall call⟩

theorem served_get (hI : Mirrored lz comp dflt h S) (hd : h.cache.distributed = some d) (key : String) :
    Mirrored lz comp dflt (h.served d (.get key)) S := by
  obtain ⟨l, J, hS, hm⟩ := hI
  exact ⟨l, J, hS, hm.served_get hd key⟩

theorem served_job {key : String} {frame : ByteArray} {ttl : Nat}
    (hI : Mirrored lz comp dflt h (.job key frame ttl .waiting ::ₘ M))
    (hd : h.cache.distributed = some d) :
    Mirrored lz comp dflt (h.served d (.setex key frame ttl)) (.job key frame ttl .written ::ₘ M) := by
  obtain ⟨l, J, rfl, hm⟩ := mirrored_job rfl hI
  exact ⟨l, _, Multiset.cons_swap _ _ _, hm.served_job hd⟩

theorem beside {h' : Host} (hI : Mirrored lz comp dflt h S) (hreq : h'.requested = [])
    (hclock : h'.clock = h.clock) (hc : TieredCache.Beside h.cache h'.cache) :
    Mirrored lz comp dflt h' S := by
  obtain ⟨l, J, hS, hm⟩ := hI
  exact ⟨l, J, hS, hm.beside hreq hclock hc⟩

theorem requested (hI : Mirrored lz comp dflt h S) : h.requested = [] := by
  obtain ⟨_, _, -, hm⟩ := hI
  exact hm.requested

-- A change beside the tier keeps the share and the clock.
theorem runs_beside {F : Nat → TieredCache → TieredCache} (hI : Mirrored lz comp dflt s (o ::ₘ M))
    (hF : ∀ now c, TieredCache.Beside c (F now c)) :
    Stage.Runs Host.stage (mirrorShares lz comp dflt)
      (fun _ o' s' => o' = o ∧ Kept lz comp dflt s' o' ∧ s'.clock = s.clock) o s (Act.changeCache F) := by
  have hk : Stage.Keeps Host.stage (mirrorShares lz comp dflt) o
      (fun h => { h with cache := F h.clock h.cache }) s o :=
    keeps_of_mirrored fun _ hI => hI.beside hI.requested rfl (hF _ _)
  exact Stage.Runs.modify hk ⟨rfl, ⟨_, (hk M hI).2⟩, rfl⟩

theorem runs_onCache {α : Type} {F : Nat → TieredCache → α × TieredCache}
    (hI : Mirrored lz comp dflt s (o ::ₘ M)) (hF : ∀ now c, TieredCache.Beside c (F now c).2) :
    Stage.Runs Host.stage (mirrorShares lz comp dflt)
      (fun _ o' s' => o' = o ∧ Kept lz comp dflt s' o' ∧ s'.clock = s.clock) o s (Act.onCache F) := by
  have hk : Stage.Keeps Host.stage (mirrorShares lz comp dflt) o
      (fun _ => { s with cache := (F s.clock s.cache).2 }) s o :=
    keeps_of_mirrored fun _ hI => hI.beside hI.requested rfl (hF _ _)
  exact Stage.Runs.modifyGet hk ⟨rfl, ⟨_, (hk M hI).2⟩, rfl⟩

theorem runs_besideThen {β : Type} {F : Nat → TieredCache → TieredCache}
    (hI : Mirrored lz comp dflt s (o ::ₘ M)) (hF : ∀ now c, TieredCache.Beside c (F now c)) (b : β) :
    Stage.Runs Host.stage (mirrorShares lz comp dflt) (fun _ o' s' => o' = o ∧ Kept lz comp dflt s' o') o s
      (Act.changeCache F >>= fun _ => pure b) :=
  (runs_beside hI hF).bind fun _ _ _ ⟨ho', hK, _⟩ => .done ⟨ho', hK⟩

/-- A call to the tier, from a share that may change to `o₁` at its start, ends with the share `o'`
when the tier serving the call keeps the invariant with that share. -/
theorem runs_callTier {o₁ o' : Part} {call : BackendCall} (hI : Mirrored lz comp dflt s (o ::ₘ M))
    (hstamp : ∀ M, Mirrored lz comp dflt s (o ::ₘ M) → Mirrored lz comp dflt s (o₁ ::ₘ M))
    (hend : ∀ h M d, Mirrored lz comp dflt h (o₁ ::ₘ M) → h.cache.distributed = some d →
      Mirrored lz comp dflt (h.served d call) (o' ::ₘ M)) :
    Stage.Runs Host.stage (mirrorShares lz comp dflt) (fun _ o'' s' => o'' = o' ∧ Kept lz comp dflt s' o'')
      o s (Act.callTier call) := by
  obtain ⟨d, hd, hans⟩ := hI.answering
  refine Act.runs_callTier hI (keeps_of_mirrored fun M hI => (hstamp M hI).startCall call)
    (fun hnone => ?_) fun a ha h M₁ hI₁ => ?_
  · -- the tier admits every call
    obtain ⟨-, a, ha, -⟩ := hans.start call s.clock
    simp only [Act.startCall_some hd, ha, reduceCtorEq] at hnone
  · obtain ⟨hcall, htimely⟩ := Act.startCall_answering hd hans ha
    obtain ⟨d₁, hd₁, hans₁⟩ := hI₁.answering
    have hk : Stage.Keeps Host.stage (mirrorShares lz comp dflt) o₁ (fun _ => (Act.endCall a h).2) h o' :=
      keeps_of_mirrored fun M hI => by
        rw [Act.endCall_answering hd₁ hans₁ htimely, hcall]
        exact hend h M d₁ hI hd₁
    exact ⟨o', hk, rfl, _, (hk M₁ hI₁).2⟩

theorem runs_tierSet {o₁ o' : Part} {key : String} {frame : ByteArray} {ttl : Nat}
    (hI : Mirrored lz comp dflt s (o ::ₘ M))
    (hstamp : ∀ M, Mirrored lz comp dflt s (o ::ₘ M) → Mirrored lz comp dflt s (o₁ ::ₘ M))
    (hend : ∀ h M d, Mirrored lz comp dflt h (o₁ ::ₘ M) → h.cache.distributed = some d →
      Mirrored lz comp dflt (h.served d (.setex key frame ttl)) (o' ::ₘ M)) :
    Stage.Runs Host.stage (mirrorShares lz comp dflt) (fun _ o'' s' => o'' = o' ∧ Kept lz comp dflt s' o'')
      o s (Act.tierSet key frame ttl) :=
  (runs_callTier hI hstamp hend).bind fun _ _ _ h => .done h

theorem runs_tierGet (hI : Mirrored lz comp dflt s (o ::ₘ M)) (key : String) :
    Stage.Runs Host.stage (mirrorShares lz comp dflt) (fun _ o' s' => o' = o ∧ Kept lz comp dflt s' o') o s
      (Act.tierGet key) :=
  (runs_callTier hI (fun _ hI => hI) fun _ _ _ hI hd => hI.served_get hd key).bind
    fun _ _ _ h => .done h

theorem runs_lookup (hI : Mirrored lz comp dflt s (o ::ₘ M)) (key : String) :
    Stage.Runs Host.stage (mirrorShares lz comp dflt) (fun _ o' s' => o' = o ∧ Kept lz comp dflt s' o') o s
      (Act.lookup key) := by
  unfold Act.lookup
  refine (runs_onCache hI fun _ c => TieredCache.beside_onMemory c _).bind
    fun found o' s₁ ⟨ho', ⟨M₁, hI₁⟩, _⟩ => ?_
  subst o'
  cases found with
  | some v => exact runs_besideThen hI₁ (fun _ c => TieredCache.beside_count c _) _
  | none =>
    refine .read ?_
    simp only [Fiber.done_bind]
    split
    · exact .done ⟨rfl, M₁, hI₁⟩
    · refine (runs_tierGet hI₁ key).bind fun r o' s₂ ⟨ho', M₂, hI₂⟩ => ?_
      subst o'
      -- whatever the tier answered, only the memory tier and the counters change
      rcases r with _ | (_ | frame)
      · exact .done ⟨rfl, M₂, hI₂⟩
      · exact .done ⟨rfl, M₂, hI₂⟩
      · refine .read ?_
        simp only [Fiber.done_bind]
        cases Frame.decode s₂.cache.codec frame with
        | ok v => exact runs_besideThen hI₂ (fun _ c => (TieredCache.beside_remember c _ _ _ _ _).trans
            (TieredCache.beside_count _ _)) _
        | error _ => exact runs_besideThen hI₂ (fun _ c => TieredCache.beside_count c _) _

theorem runs_getRaw (hI : Mirrored lz comp dflt s (o ::ₘ M)) (key : String) :
    Stage.Runs Host.stage (mirrorShares lz comp dflt) (fun _ o' s' => o' = o ∧ Kept lz comp dflt s' o') o s
      (Act.getRaw key) := by
  unfold Act.getRaw
  refine (runs_lookup hI key).bind fun found o' s₁ ⟨ho', M₁, hI₁⟩ => ?_
  subst o'
  split
  · refine (runs_beside hI₁ fun _ c => TieredCache.beside_count c _).bind
      fun _ o' s₂ ⟨ho', ⟨M₂, hI₂⟩, _⟩ => ?_
    subst o'
    exact runs_besideThen hI₂ (fun _ c => TieredCache.beside_count c _) _
  · exact runs_besideThen hI₁ (fun _ c => TieredCache.beside_count c _) _

theorem runs_contains (hI : Mirrored lz comp dflt s (o ::ₘ M)) (key : String) :
    Stage.Runs Host.stage (mirrorShares lz comp dflt) (fun _ o' s' => o' = o ∧ Kept lz comp dflt s' o') o s
      (Act.contains key) := by
  unfold Act.contains Act.memoryOnly Act.look
  refine .read ?_
  simp only [Fiber.done_bind]
  split
  · exact .done ⟨rfl, M, hI⟩
  · refine .read ?_
    simp only [Fiber.done_bind]
    split
    · exact .done ⟨rfl, M, hI⟩
    · exact (runs_tierGet hI key).bind fun r o' s' ⟨ho', hK⟩ => by
        split <;> exact .done ⟨ho', hK⟩

-- What a set does after its write, counting it and publishing it if it worked.
theorem runs_setTail (hI : Mirrored lz comp dflt s (o ::ₘ M)) (key : String) (strategy : WriteStrategy)
    (ok : Bool) :
    Stage.Runs Host.stage (mirrorShares lz comp dflt) (fun _ o' s' => o' = o ∧ Kept lz comp dflt s' o') o s (do
        Act.changeCache fun _ c => c.count fun m => m.set.sample
        if ok then Act.changeCache fun _ c => (c.publish (.set key strategy)).offerTrigger key
        return ok) := by
  refine (runs_beside hI fun _ c => TieredCache.beside_count c _).bind
    fun _ o' s₁ ⟨ho', ⟨M₁, hI₁⟩, _⟩ => ?_
  subst o'
  split
  · exact runs_besideThen hI₁ (fun _ c =>
      (TieredCache.beside_publish c _).trans (TieredCache.beside_offerTrigger _ _)) _
  · exact .done ⟨rfl, M₁, hI₁⟩

/-! ### The caller's ledger along its calls -/

variable {l : Ledger}

theorem runs_modifyLedger {l' : Ledger} {g : Host → Host} {Q : Unit → Part → Host → Prop}
    (hI : Mirrors lz comp dflt s l M) (hg : ∀ J, Mirrors lz comp dflt s l J → Mirrors lz comp dflt (g s) l' J)
    (hq : Kept lz comp dflt (Host.stage.takeJobs (g s)).2 (.caller l') →
      Q () (.caller l') (Host.stage.takeJobs (g s)).2) :
    Stage.Runs Host.stage (mirrorShares lz comp dflt) Q (.caller l) s (Fiber.modify g) := by
  have hk : Stage.Keeps Host.stage (mirrorShares lz comp dflt) (.caller l) g s (.caller l') :=
    keeps_caller hg
  exact Stage.Runs.modify hk (hq ⟨_, (hk M (mirrored_caller.2 hI)).2⟩)

theorem runs_modifyGetLedger {α : Type} {l' : Ledger} {F : Host → α × Host}
    {Q : α → Part → Host → Prop} (hI : Mirrors lz comp dflt s l M)
    (hg : ∀ J, Mirrors lz comp dflt s l J → Mirrors lz comp dflt (F s).2 l' J)
    (hq : Kept lz comp dflt (Host.stage.takeJobs (F s).2).2 (.caller l') →
      Q (F s).1 (.caller l') (Host.stage.takeJobs (F s).2).2) :
    Stage.Runs Host.stage (mirrorShares lz comp dflt) Q (.caller l) s (Fiber.modifyGet F) := by
  have hk : Stage.Keeps Host.stage (mirrorShares lz comp dflt) (.caller l) (fun _ => (F s).2) s
      (.caller l') :=
    keeps_caller hg
  exact Stage.Runs.modifyGet hk (hq ⟨_, (hk M (mirrored_caller.2 hI)).2⟩)

-- The first change of a set, after which the caller notes the clock's reading.
theorem runs_stamp {F : Nat → TieredCache → TieredCache} (hI : Mirrors lz comp dflt s l M)
    (hF : ∀ now c, TieredCache.Beside c (F now c)) :
    Stage.Runs Host.stage (mirrorShares lz comp dflt)
      (fun _ o' s' => o' = .caller { l with since := s.clock } ∧ Kept lz comp dflt s' o' ∧
        s'.clock = s.clock)
      (.caller l) s (Act.changeCache F) :=
  runs_modifyLedger hI (fun _ hm => hm.restamp.beside hm.requested rfl (hF _ _))
    fun hK => ⟨rfl, hK, rfl⟩

/-- The caller's write to the tier of a key it has not set by write-behind since its last flush:
the caller notes the clock's reading when the write starts, and from its end on its ledger holds
the set as the last change of the key. -/
theorem runs_writeThrough (hI : Mirrors lz comp dflt s l M) {key : String} (hfree : ¬ l.unflushed key)
    (v : ByteArray) (ttl : Nat) :
    Stage.Runs Host.stage (mirrorShares lz comp dflt)
      (fun _ o' s' => o' = .caller { l with
          since := s.clock
          last := Function.update l.last key (some (.stores v ttl s.clock)) } ∧
        Kept lz comp dflt s' o')
      (.caller l) s (Act.writeThrough key v ttl) := by
  obtain ⟨d, hd, -, -⟩ := hI.mirrors
  unfold Act.writeThrough Act.memoryOnly Act.look
  refine .read ?_
  simp only [Fiber.done_bind]
  split
  · next hm => simp [TieredCache.memoryOnly, hd] at hm
  · refine .read ?_
    simp only [Fiber.done_bind]
    rw [hI.compression, hI.codec]
    exact (runs_tierSet (mirrored_caller.2 hI)
      (fun _ hI => mirrored_caller.2 (mirrored_caller.1 hI).restamp)
      fun h M d hI hd => mirrored_caller.2 ((mirrored_caller.1 hI).served_set hd hfree v ttl)).bind
        fun _ _ _ h => .done h

/-- The caller's removal from the tier, by `call`, of the keys `gone` picks, none of which it has
set by write-behind since its last flush: its ledger then holds the removal as their last
change. -/
theorem runs_removal (call : BackendCall) (gone : String → Prop) [DecidablePred gone]
    (hI : Mirrors lz comp dflt s l M) (hfree : ∀ k, gone k → ¬ l.unflushed k)
    (hstore : ∀ (b : Backend) now k,
      (b.act call now).1.store.lookup k = if gone k then none else b.store.lookup k) :
    Stage.Runs Host.stage (mirrorShares lz comp dflt)
      (fun _ o' s' => o' = .caller { l with last := fun k => if gone k then some .removes else l.last k } ∧
        Kept lz comp dflt s' o')
      (.caller l) s (Act.callTier call) :=
  Mirrored.runs_callTier (mirrored_caller.2 hI) (fun _ hI => hI)
    fun _ _ _ hI hd => mirrored_caller.2 ((mirrored_caller.1 hI).served_removal hd hfree (hstore _ _))

theorem runs_tierDelete (hI : Mirrors lz comp dflt s l M) {key : String} (hfree : ¬ l.unflushed key) :
    Stage.Runs Host.stage (mirrorShares lz comp dflt)
      (fun _ o' s' => o' = .caller { l with last := fun k => if k = key then some .removes else l.last k } ∧
        Kept lz comp dflt s' o')
      (.caller l) s (Act.tierDelete key) :=
  (runs_removal (.delete key) (· = key) hI (fun _ hk => hk ▸ hfree)
    fun b now k => Backend.lookup_delete b key k now).bind fun _ _ _ h => .done h

theorem runs_delete (hI : Mirrors lz comp dflt s l M) {key : String} (hfree : ¬ l.unflushed key) :
    Stage.Runs Host.stage (mirrorShares lz comp dflt)
      (fun _ o' s' => o' = .caller { l with last := fun k => if k = key then some .removes else l.last k } ∧
        Kept lz comp dflt s' o')
      (.caller l) s (Act.delete key) := by
  unfold Act.delete Act.memoryOnly Act.look
  refine (runs_beside (mirrored_caller.2 hI) fun _ c => TieredCache.beside_onMemory c _).bind
    fun _ o' s₁ h => ?_
  obtain ⟨ho', ⟨M₁, hI₁⟩, _⟩ := h
  subst o'
  have hm₁ := mirrored_caller.1 hI₁
  obtain ⟨d, hd, -, -⟩ := hm₁.mirrors
  refine .read ?_
  simp only [Fiber.done_bind]
  split
  · next hm => simp [TieredCache.memoryOnly, hd] at hm
  · -- the removal from the tier, and then the count
    refine (runs_tierDelete hm₁ hfree).bind fun _ o' s₂ h => ?_
    obtain ⟨ho', M₂, hI₂⟩ := h
    subst o'
    exact runs_besideThen hI₂ (fun _ c => (TieredCache.beside_count c _).trans
      (TieredCache.beside_publish _ _)) _

theorem runs_tierDeleteMatching (hI : Mirrors lz comp dflt s l M) {pattern : String}
    (hfree : ∀ k, invalidates pattern k → ¬ l.unflushed k) :
    Stage.Runs Host.stage (mirrorShares lz comp dflt)
      (fun _ o' s' => o' = .caller { l with
          last := fun k => if invalidates pattern k then some .removes else l.last k } ∧
        Kept lz comp dflt s' o')
      (.caller l) s (Act.tierDeleteMatching pattern) := by
  unfold Act.tierDeleteMatching
  split
  · next hpat =>
    refine (runs_removal (.deleteMatching pattern) (invalidates pattern · = true) hI hfree
      fun b now k => ?_).bind fun _ _ _ h => .done h
    rw [Backend.lookup_deleteMatching]
    simp [invalidates, hpat]
  · next hpat =>
    refine (runs_removal (.delete pattern) (invalidates pattern · = true) hI hfree
      fun b now k => ?_).bind fun _ _ _ h => .done h
    rw [Backend.lookup_delete]
    simp [invalidates, hpat]

theorem runs_invalidate (hI : Mirrors lz comp dflt s l M) {pattern : String}
    (hfree : ∀ k, invalidates pattern k → ¬ l.unflushed k) :
    Stage.Runs Host.stage (mirrorShares lz comp dflt)
      (fun _ o' s' => o' = .caller { l with
          last := fun k => if invalidates pattern k then some .removes else l.last k } ∧
        Kept lz comp dflt s' o')
      (.caller l) s (Act.invalidate pattern) := by
  unfold Act.invalidate Act.memoryOnly Act.look
  refine (runs_onCache (mirrored_caller.2 hI) fun _ c => TieredCache.beside_onMemory c _).bind
    fun _ o' s₁ h => ?_
  obtain ⟨ho', ⟨M₁, hI₁⟩, _⟩ := h
  subst o'
  have hm₁ := mirrored_caller.1 hI₁
  obtain ⟨d, hd, -, -⟩ := hm₁.mirrors
  refine .read ?_
  simp only [Fiber.done_bind]
  split
  · next hm => simp [TieredCache.memoryOnly, hd] at hm
  · refine (runs_tierDeleteMatching hm₁ hfree).bind fun _ o' s₂ h => ?_
    obtain ⟨ho', M₂, hI₂⟩ := h
    subst o'
    exact runs_besideThen hI₂ (fun _ c => TieredCache.beside_publish c _) _

-- Asking for the job of a write-behind set hands it the set's frame and the caller's count.
theorem keeps_spawn (hcredit : 0 < l.credit) {key : String} (hfree : ¬ l.unflushed key)
    (v : ByteArray) (ttl ticket : Nat) :
    Stage.Keeps Host.stage (mirrorShares lz comp dflt) (.caller l)
      (fun h => { h with requested := h.requested ++ [.writeBehind key (Frame.encode lz comp v).2 ttl ticket] })
      s (.caller { l with
        last := Function.update l.last key (some (.stores v ttl l.since))
        unflushed := fun k => l.unflushed k ∨ k = key
        credit := l.credit - 1 }) := by
  intro M hI
  have hm := mirrored_caller.1 hI
  have hnil := hm.requested
  refine ⟨by simp [hnil, mirrorShares], ?_⟩
  simp only [Host.stage_takeJobs, hnil, List.nil_append, List.map_cons, List.map_nil,
    host_requested_nil hnil]
  have hjob : M + ↑[(mirrorShares lz comp dflt).hold (.writeBehind key (Frame.encode lz comp v).2 ttl ticket)] =
      .job key (Frame.encode lz comp v).2 ttl .waiting ::ₘ M := by
    rw [Multiset.coe_singleton, ← Multiset.cons_zero, Multiset.add_cons, Multiset.add_zero]
    rfl
  rw [hjob]
  exact mirrored_caller.2 (hm.spawn hcredit hfree v ttl)

/-- The write-behind write of a key the caller has not set by write-behind since its last flush:
counted as pending, and then its job asked for, waiting to write the set's frame. -/
theorem runs_scheduleWrite (hI : Mirrors lz comp dflt s l M) {key : String} (hfree : ¬ l.unflushed key)
    (v : ByteArray) (ttl : Nat) :
    Stage.Runs Host.stage (mirrorShares lz comp dflt)
      (fun _ o' s' => o' = .caller { l with
          last := Function.update l.last key (some (.stores v ttl l.since))
          unflushed := fun k => l.unflushed k ∨ k = key } ∧
        Kept lz comp dflt s' o')
      (.caller l) s (Act.scheduleWrite key v ttl) := by
  obtain ⟨d, hd, -, -⟩ := hI.mirrors
  unfold Act.scheduleWrite Act.memoryOnly Act.look
  refine .read ?_
  simp only [Fiber.done_bind]
  split
  · next hm => simp [TieredCache.memoryOnly, hd] at hm
  · -- the write is counted as pending, and the caller holds the count until the job is asked for
    refine Stage.Runs.bind (runs_modifyGetLedger hI (fun _ hm => hm.schedule)
        fun hK => ⟨by rw [hI.compression, hI.codec], rfl, hK⟩)
      fun x o' s₁ (h : x.1 = (Frame.encode lz comp v).2 ∧ o' = .caller { l with credit := l.credit + 1 } ∧
        Kept lz comp dflt s₁ (.caller { l with credit := l.credit + 1 })) => ?_
    obtain ⟨hframe, rfl, M₁, hI₁⟩ := h
    obtain ⟨frame, ticket⟩ := x
    dsimp only at hframe
    subst hframe
    have hk : Stage.Keeps Host.stage (mirrorShares lz comp dflt) (.caller { l with credit := l.credit + 1 })
        _ s₁ _ :=
      keeps_spawn (Nat.succ_pos _) (show ¬ ({ l with credit := l.credit + 1 } : Ledger).unflushed key
        from hfree) v ttl ticket
    exact Stage.Runs.modify hk ⟨rfl, _, (hk M₁ hI₁).2⟩

/-- A set of a key the caller has not set by write-behind since its last flush: from then on the
caller's ledger holds it as the last change of the key, begun when the set began, and a
write-behind set also as unflushed. -/
theorem runs_setRaw (hI : Mirrors lz comp dflt s l M) {key : String} (hfree : ¬ l.unflushed key)
    (v : ByteArray) (ttlMs : Option Nat) (strategy : WriteStrategy) :
    Stage.Runs Host.stage (mirrorShares lz comp dflt)
      (fun _ o' s' => ∃ l', o' = .caller l' ∧
        l'.last = Function.update l.last key (some (.stores v (ttlMs.getD dflt) s.clock)) ∧
        (∀ k, l'.unflushed k → l.unflushed k ∨ strategy = .writeBehind ∧ k = key) ∧
        l'.credit = l.credit ∧ Kept lz comp dflt s' o')
      (.caller l) s (Act.setRaw key v ttlMs strategy) := by
  unfold Act.setRaw Act.look
  refine .read ?_
  simp only [Fiber.done_bind]
  rw [hI.defaultTtl]
  cases strategy with
  | cacheAside =>
    refine (runs_stamp hI fun _ c => TieredCache.beside_remember c _ _ _ _ _).bind
      fun _ o' s₁ ⟨ho', ⟨M₁, hI₁⟩, hclock⟩ => ?_
    subst o'
    refine (runs_writeThrough (mirrored_caller.1 hI₁) hfree v _).bind
      fun ok o' s₂ ⟨ho', M₂, hI₂⟩ => ?_
    subst o'
    exact (runs_setTail hI₂ key .cacheAside ok).mono fun _ o' s' ⟨ho', hK⟩ =>
      ⟨_, ho', by rw [hclock], fun k hk => .inl hk, rfl, hK⟩
  | writeThrough =>
    refine (runs_writeThrough hI hfree v _).bind fun ok o' s₁ ⟨ho', M₁, hI₁⟩ => ?_
    subst o'
    refine (runs_beside hI₁ fun _ c => TieredCache.beside_remember c _ _ _ _ _).bind
      fun _ o' s₂ ⟨ho', ⟨M₂, hI₂⟩, _⟩ => ?_
    subst o'
    exact (runs_setTail hI₂ key .writeThrough ok).mono fun _ o' s' ⟨ho', hK⟩ =>
      ⟨_, ho', rfl, fun k hk => .inl hk, rfl, hK⟩
  | writeBehind =>
    refine (runs_stamp hI fun _ c => TieredCache.beside_remember c _ _ _ _ _).bind
      fun _ o' s₁ ⟨ho', ⟨M₁, hI₁⟩, hclock⟩ => ?_
    subst o'
    refine (runs_scheduleWrite (mirrored_caller.1 hI₁) hfree v _).bind
      fun _ o' s₂ ⟨ho', M₂, hI₂⟩ => ?_
    subst o'
    exact (runs_setTail hI₂ key .writeBehind true).mono fun _ o' s' ⟨ho', hK⟩ =>
      ⟨_, ho', rfl, fun k hk => hk.imp_right fun hk => ⟨rfl, hk⟩, rfl, hK⟩

-- A flush wakes once no write is pending; the caller then has nothing unflushed.
theorem runs_flush :
    Stage.Runs Host.stage (mirrorShares lz comp dflt)
      (fun _ o' s' => o' = .caller { l with unflushed := fun _ => False } ∧ Kept lz comp dflt s' o')
      (.caller l) s Act.flush :=
  .wait (fun _ => .caller { l with unflushed := fun _ => False })
    (fun _ _ hI' hwake => mirrored_caller.2 ((mirrored_caller.1 hI').flushed (by simpa using hwake)))
    fun _ M' hI' hwake =>
      .done ⟨rfl, M', mirrored_caller.2 ((mirrored_caller.1 hI').flushed (by simpa using hwake))⟩

/-! ### The write-behind jobs -/

/-- A write-behind job writes the caller's last set of its key and is then counted off the pending
writes; it first waits for its turn, so it runs safely from any state. -/
theorem runs_writeBehindJob (key : String) (frame : ByteArray) (ttl ticket : Nat) :
    Stage.Runs Host.stage (mirrorShares lz comp dflt)
      (fun _ o' _ => (mirrorShares lz comp dflt).Ended o') (.job key frame ttl .waiting) s
      (Act.writeBehindJob key frame ttl ticket) := by
  unfold Act.writeBehindJob
  refine .wait (fun _ => .job key frame ttl .waiting) (fun _ _ hI _ => hI) fun s₁ M₁ hI₁ _ => ?_
  simp only [Fiber.done_bind]
  -- its turn: the permit taken, the frame written, the permit given back
  refine (runs_beside hI₁ fun _ c => TieredCache.beside_writeBehind c _ (by rfl)).bind
    fun _ o' s₂ ⟨ho', ⟨M₂, hI₂⟩, _⟩ => ?_
  subst o'
  refine (runs_tierSet hI₂ (fun _ hI => hI) fun _ _ _ hI hd => hI.served_job hd).bind
    fun _ o' s₃ ⟨ho', M₃, hI₃⟩ => ?_
  subst o'
  refine (runs_beside hI₃ fun _ c => TieredCache.beside_writeBehind c _ (by rfl)).bind
    fun _ o' s₄ ⟨ho', ⟨M₄, hI₄⟩, _⟩ => ?_
  subst o'
  -- a failure counted if there was one, and then the job counted off the pending writes
  have hfinish : ∀ s₅, Stage.Runs Host.stage (mirrorShares lz comp dflt)
      (fun _ o' _ => (mirrorShares lz comp dflt).Ended o') (.job key frame ttl .written) s₅
      (Act.changeCache fun _ c =>
        { c with writeBehind := { c.writeBehind with pending := c.writeBehind.pending - 1 } }) :=
    fun _ => Stage.Runs.modify (keeps_job rfl fun _ _ hm => hm.finish) trivial
  split
  · exact (runs_beside hI₄ fun _ c => TieredCache.beside_count c _).bind
      fun _ o' _ ⟨ho', _⟩ => ho' ▸ hfinish _
  · exact hfinish s₄

-- Every job a fiber may ask for runs safely from the share it is handed.
theorem poised_jobs : ∀ j, (mirrorShares lz comp dflt).Spawnable j →
    Host.stage.Poised (mirrorShares lz comp dflt) ((mirrorShares lz comp dflt).hold j)
      (Host.stage.launch j)
  | .writeBehind key frame ttl ticket, _ => fun _ _ _ => runs_writeBehindJob key frame ttl ticket
  | .warm .., h => h.elim
  | .loop _, h => h.elim

-- The clock moving on keeps the tier mirrored.
theorem tick (hI : Mirrored lz comp dflt h S) {t : Nat} (ht : h.clock ≤ t) :
    Mirrored lz comp dflt { h with clock := t } S := by
  obtain ⟨l, J, hS, hm⟩ := hI
  exact ⟨l, J, hS, hm.tick ht⟩

/-- A caller that has changed nothing, beside no job, over a tier that answers every call. -/
theorem start (hd : h.cache.distributed = some d) (hans : d.Answering) (hjobs : h.requested = []) :
    Mirrored h.cache.codec h.cache.compression h.cache.defaultTtlMs h
      {.caller ⟨fun _ => none, fun _ => False, 0, h.clock⟩} :=
  ⟨_, 0, rfl, {
    requested := hjobs
    codec := rfl
    compression := rfl
    defaultTtl := rfl
    jobs := fun _ hx => absurd hx (Multiset.notMem_zero _)
    mirrors := ⟨d, hd, hans, fun _ _ hc => by cases hc⟩
    queued := fun _ _ _ hx => absurd hx (Multiset.notMem_zero _)
    reached := le_refl _
    started := fun _ _ _ _ hc => by cases hc
    owed := by simp }⟩

end Mirrored

end TierCache
