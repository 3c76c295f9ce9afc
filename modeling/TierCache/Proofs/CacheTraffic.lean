import Mathlib
import TierCache.Proofs.FlushedTier
import TierCache.Frame.Lz4Compress

/-!
# What the cache reports of its callers' traffic

The read and write counters, the follower's events and the trigger queue move with the caller's
calls alone (`trafficShares`), each call by an effect of the call and its reply.

Main statement: `traffic_of_ends`.
-/

namespace TierCache

/-- A key offered to the trigger queue, if there is one, beside the count of dropped triggers:
queued when there is room, vanished when the reader is gone, and counted as dropped when the queue
is full. -/
def TriggerQueue.offerCounting : Option TriggerQueue × Nat → String → Option TriggerQueue × Nat
  | (none, dropped), _ => (none, dropped)
  | (some q, dropped), key =>
    match q.offer key with
    | some q' => (some q', dropped)
    | none => (some q, dropped + 1)

/-- What the cache reports of its callers' traffic: the counters their reads and writes move, and
what the follower and the warming trigger queue have received. -/
structure Traffic where
  hits : Nat
  misses : Nat
  sets : Nat
  deletes : Nat
  latencySamples : Nat
  warmTriggersDropped : Nat
  events : Option EventFeed
  triggers : Option TriggerQueue

namespace Traffic

/-- A hit counted. -/
def hit (t : Traffic) : Traffic := { t with hits := t.hits + 1 }

/-- A miss counted. -/
def miss (t : Traffic) : Traffic := { t with misses := t.misses + 1 }

/-- A latency sample taken; the window holds the last thousand. -/
def sample (t : Traffic) : Traffic :=
  { t with latencySamples := min (t.latencySamples + 1) latencyWindow }

/-- A lookup counted: a hit when it found a value, a miss otherwise, and a latency sample. -/
def lookedUp (t : Traffic) (found : Bool) : Traffic := (if found then t.hit else t.miss).sample

/-- An event delivered to the follower, if there is one. -/
def publish (t : Traffic) (e : CacheEvent) : Traffic := { t with events := t.events.map (·.publish e) }

/-- The trigger queue, if there is one, and the count of dropped triggers. -/
def queue (t : Traffic) : Option TriggerQueue × Nat := (t.triggers, t.warmTriggersDropped)

/-- A written key offered to the trigger queue. -/
def offer (t : Traffic) (key : String) : Traffic :=
  { t with triggers := (TriggerQueue.offerCounting t.queue key).1,
           warmTriggersDropped := (TriggerQueue.offerCounting t.queue key).2 }

/-- A write counted. -/
def set (t : Traffic) : Traffic := { t with sets := t.sets + 1 }

/-- A write counted with its latency sample; one that worked is published and offered. -/
def wrote (t : Traffic) (key : String) (strategy : WriteStrategy) (ok : Bool) : Traffic :=
  if ok then (t.set.sample.publish (.set key strategy)).offer key else t.set.sample

/-- A removal counted and published. -/
def removed (t : Traffic) (key : String) : Traffic :=
  { t with deletes := t.deletes + 1 }.publish (.delete key)

end Traffic

namespace Metrics

/-- The counters that reads and writes move: hits and misses, with the tier of each hit, writes,
removals, latency samples and dropped triggers. -/
def calls (m : Metrics) : Nat × Nat × Nat × Nat × Nat × Nat × Nat × Nat :=
  (m.hits, m.misses, m.memoryHits, m.distributedHits, m.sets, m.deletes, m.latencySamples,
    m.warmTriggersDropped)

@[simp] theorem calls_error (m : Metrics) : m.error.calls = m.calls := rfl

@[simp] theorem calls_occupancy (m : Metrics) (entries bytes : Nat) :
    (m.occupancy entries bytes).calls = m.calls := rfl

@[simp] theorem calls_evicted (m : Metrics) (n : Nat) : (m.evicted n).calls = m.calls := rfl

@[simp] theorem calls_expired (m : Metrics) (n : Nat) : (m.expired n).calls = m.calls := rfl

@[simp] theorem calls_writeBehind (m : Metrics) : m.writeBehind.calls = m.calls := rfl

@[simp] theorem calls_writeBehindFailure (m : Metrics) : m.writeBehindFailure.calls = m.calls := rfl

end Metrics

/-! ## The memory tier moves none of the callers' counters -/

namespace MemoryTier

variable (t : MemoryTier) (m : Metrics)

@[simp] theorem calls_publish : (t.publish m).calls = m.calls := rfl

theorem calls_get (key : String) (now : Nat) : (t.get m key now).2.2.calls = m.calls := by
  unfold get
  split
  · rfl
  · split <;> rfl

theorem calls_evictOldest : (t.evictOldest m).2.2.calls = m.calls := by
  simp only [evictOldest]
  split <;> rfl

theorem calls_set (key : String) (value : ByteArray) (ttlMs : Nat) (origin : Origin) (now : Nat) :
    (t.set m key value ttlMs origin now).2.2.calls = m.calls := by
  simp only [set, calls_publish]
  -- the counters after an eviction, if there was one
  split
  · exact calls_evictOldest t m
  · rfl

theorem calls_delete (key : String) : (t.delete m key).2.2.calls = m.calls := by
  unfold delete
  split <;> rfl

theorem calls_removeMatching (pattern : String) (now : Nat) :
    (t.removeMatching m pattern now).2.2.calls = m.calls := by
  simp only [removeMatching]
  split <;> rfl

theorem calls_sweep (now : Nat) : (t.sweep m now).2.2.calls = m.calls := by
  simp only [sweep]
  split <;> rfl

theorem calls_clear : (t.clear m).2.calls = m.calls := rfl

end MemoryTier

-- A call to the distributed tier moves only the error count among the counters.
theorem DistributedTier.calls_complete (d : DistributedTier) (m : Metrics)
    (a : DistributedTier.Admitted) (now : Nat) : (d.complete m a now).2.1.calls = m.calls := by
  unfold DistributedTier.complete DistributedTier.settle
  split <;> rfl

/-! ## The traffic a cache reports -/

namespace TieredCache

/-- What the cache reports of its callers' traffic. -/
def traffic (c : TieredCache) : Traffic :=
  ⟨c.metrics.hits, c.metrics.misses, c.metrics.sets, c.metrics.deletes, c.metrics.latencySamples,
    c.metrics.warmTriggersDropped, c.events, c.triggers⟩

/-- Every hit is counted as a memory hit or a distributed hit. -/
def HitsSplit (c : TieredCache) : Prop :=
  c.metrics.hits = c.metrics.memoryHits + c.metrics.distributedHits

/-- A change the callers' traffic does not see: the counters their calls move, the follower and the
trigger queue stay as they were. -/
def Unheard (c c' : TieredCache) : Prop :=
  c'.metrics.calls = c.metrics.calls ∧ c'.events = c.events ∧ c'.triggers = c.triggers

variable {c c' c'' : TieredCache}

theorem Unheard.refl (c : TieredCache) : Unheard c c := ⟨rfl, rfl, rfl⟩

theorem Unheard.trans (h₁ : Unheard c c') (h₂ : Unheard c' c'') : Unheard c c'' :=
  ⟨h₂.1.trans h₁.1, h₂.2.1.trans h₁.2.1, h₂.2.2.trans h₁.2.2⟩

theorem Unheard.traffic_eq (h : Unheard c c') : c'.traffic = c.traffic := by
  obtain ⟨hm, he, ht⟩ := h
  simp only [Metrics.calls, Prod.mk.injEq] at hm
  simp [traffic, hm, he, ht]

theorem Unheard.hitsSplit (h : Unheard c c') (hs : c.HitsSplit) : c'.HitsSplit := by
  obtain ⟨hm, -, -⟩ := h
  simp only [Metrics.calls, Prod.mk.injEq] at hm
  unfold HitsSplit at hs ⊢
  omega

theorem unheard_count {f : Metrics → Metrics} (hf : (f c.metrics).calls = c.metrics.calls) :
    Unheard c (c.count f) :=
  ⟨hf, rfl, rfl⟩

theorem unheard_onMemory {α : Type} (c : TieredCache) (f : MemoryTier → Metrics → α × MemoryTier × Metrics)
    (hf : (f c.memory c.metrics).2.2.calls = c.metrics.calls) : Unheard c (c.onMemory f).2 :=
  ⟨hf, rfl, rfl⟩

theorem unheard_remember (c : TieredCache) (key : String) (v : ByteArray) (ttl : Nat) (origin : Origin)
    (now : Nat) : Unheard c (c.remember key v ttl origin now) :=
  unheard_onMemory c _ (MemoryTier.calls_set _ _ _ _ _ _ _)

theorem unheard_writeBehind (c : TieredCache) (w : WriteBehind) : Unheard c { c with writeBehind := w } :=
  ⟨rfl, rfl, rfl⟩

/-! ### The changes the traffic sees -/

@[simp] theorem traffic_memoryHit (c : TieredCache) : (c.count Metrics.memoryHit).traffic = c.traffic.hit :=
  rfl

theorem traffic_rememberHit (c : TieredCache) (key : String) (v : ByteArray) (ttl : Nat) (origin : Origin)
    (now : Nat) :
    ((c.remember key v ttl origin now).count Metrics.distributedHit).traffic = c.traffic.hit := by
  have h := (unheard_remember c key v ttl origin now).traffic_eq
  simp only [traffic, Traffic.hit, count, Metrics.distributedHit, Traffic.mk.injEq] at h ⊢
  obtain ⟨h1, h2, h3, h4, h5, h6, h7, h8⟩ := h
  exact ⟨by rw [h1], h2, h3, h4, h5, h6, h7, h8⟩

@[simp] theorem traffic_miss (c : TieredCache) : (c.count Metrics.miss).traffic = c.traffic.miss := rfl

@[simp] theorem traffic_sample (c : TieredCache) : (c.count Metrics.sample).traffic = c.traffic.sample := rfl

@[simp] theorem traffic_publish (c : TieredCache) (e : CacheEvent) :
    (c.publish e).traffic = c.traffic.publish e := rfl

@[simp] theorem traffic_offerTrigger (c : TieredCache) (key : String) :
    (c.offerTrigger key).traffic = c.traffic.offer key := by
  cases hq : c.triggers with
  | none => simp [offerTrigger, Traffic.offer, Traffic.queue, TriggerQueue.offerCounting, traffic, hq]
  | some q =>
    cases ho : q.offer key <;>
      simp [offerTrigger, Traffic.offer, Traffic.queue, TriggerQueue.offerCounting, traffic, hq, ho,
        count, Metrics.triggerDropped]

theorem hitsSplit_memoryHit (h : c.HitsSplit) : (c.count Metrics.memoryHit).HitsSplit := by
  unfold HitsSplit at h ⊢
  simp only [count, Metrics.memoryHit]
  omega

theorem hitsSplit_rememberHit (h : c.HitsSplit) (key : String) (v : ByteArray) (ttl : Nat)
    (origin : Origin) (now : Nat) :
    ((c.remember key v ttl origin now).count Metrics.distributedHit).HitsSplit := by
  have h' := (unheard_remember c key v ttl origin now).hitsSplit h
  unfold HitsSplit at h' ⊢
  simp only [count, Metrics.distributedHit]
  omega

-- A change that moves neither the hits nor their split keeps the split.
theorem hitsSplit_of_eq (h : c.HitsSplit) (hh : c'.metrics.hits = c.metrics.hits)
    (hm : c'.metrics.memoryHits = c.metrics.memoryHits)
    (hd : c'.metrics.distributedHits = c.metrics.distributedHits) : c'.HitsSplit := by
  unfold HitsSplit at h ⊢
  omega

end TieredCache

/-! ## The caller owns the traffic -/

/-- The jobs a caller's calls ask for: write-behind writes. -/
def Job.WritesBehind : Job → Prop
  | .writeBehind .. => True
  | _ => False

/-- The caller holds the traffic it has made; a write-behind job holds nothing. No job waits to
start, every hit is split between the tiers, at most one fiber is the caller, and the cache reports
the caller's traffic. -/
structure Reported (h : Host) (S : Multiset (Option Traffic)) : Prop where
  requested : h.requested = []
  split : h.cache.HitsSplit
  callers : S.countP (·.isSome) ≤ 1
  traffic : ∀ t, some t ∈ S → h.cache.traffic = t

/-- The fibers share the traffic: the caller owns it, and the jobs its writes start own nothing. -/
def trafficShares : Sharing Host Job (Option Traffic) where
  Inv := Reported
  hold _ := none
  Spawnable := Job.WritesBehind
  Ended _ := True

namespace Reported

variable {h : Host} {t : Traffic} {M : Multiset (Option Traffic)}

-- Besides the caller, every fiber holds nothing.
theorem others (hI : Reported h (some t ::ₘ M)) : ∀ x ∈ M, x = none := by
  intro x hx
  have hc := hI.callers
  rw [Multiset.countP_cons_of_pos _ (by rfl)] at hc
  have hM : M.countP (·.isSome) = 0 := by omega
  rw [Multiset.countP_eq_zero] at hM
  exact Option.not_isSome_iff_eq_none.1 (hM x hx)

theorem caller (hI : Reported h (some t ::ₘ M)) : h.cache.traffic = t :=
  hI.traffic t (Multiset.mem_cons_self _ _)

/-- Jobs that join holding nothing leave the traffic reported. -/
theorem spawned (hI : Reported h M) (jobs : List Job) :
    Reported h (M + ↑(jobs.map trafficShares.hold)) := by
  have hidle : ∀ x ∈ (↑(jobs.map trafficShares.hold) : Multiset (Option Traffic)), x = none := by
    simp [trafficShares]
  refine ⟨hI.requested, hI.split, ?_, fun t ht => hI.traffic t ?_⟩
  · have h0 : (↑(jobs.map trafficShares.hold) : Multiset (Option Traffic)).countP (·.isSome) = 0 :=
      Multiset.countP_eq_zero.2 fun x hx => by simp [hidle x hx]
    simpa [Multiset.countP_add, h0] using hI.callers
  · rcases Multiset.mem_add.1 ht with ht | ht
    · exact ht
    · cases hidle _ ht

end Reported

namespace Host

/-- A change the callers' traffic does not see: the only jobs it asks for are write-behind writes,
and the counters the calls move, the follower and the trigger queue stay as they were. -/
def Unheard (h h' : Host) : Prop :=
  (∀ j ∈ h'.requested, j ∈ h.requested ∨ j.WritesBehind) ∧ TieredCache.Unheard h.cache h'.cache

theorem Unheard.of_cache {h h' : Host} (hreq : h'.requested = h.requested)
    (hc : TieredCache.Unheard h.cache h'.cache) : Unheard h h' :=
  ⟨fun _ hj => .inl (hreq ▸ hj), hc⟩

end Host

section Keeps

variable {s : Host} {o : Option Traffic} {g : Host → Host}

/-- A change the traffic does not see keeps every share; the write-behind jobs it asks for join
holding nothing. -/
theorem keeps_unheard (hg : Host.Unheard s (g s)) : Stage.Keeps Host.stage trafficShares o g s o := by
  intro M hI
  have hnil := hI.requested
  refine ⟨fun j hj => ?_, ?_⟩
  · rcases hg.1 j hj with hj | hj
    · simp [hnil] at hj
    · exact hj
  · have hnew : Reported { g s with requested := [] } (o ::ₘ M) :=
      ⟨rfl, hg.2.hitsSplit hI.split, hI.callers, fun t ht => hg.2.traffic_eq.trans (hI.traffic t ht)⟩
    show Reported _ _
    simpa [Multiset.cons_add] using hnew.spawned (g s).requested

/-- A change of the caller that asks for no job and moves the traffic by `φ`, keeping the split
of hits, passes the caller's share on as the traffic moved by `φ`. -/
theorem keeps_heard {t : Traffic} {φ : Traffic → Traffic} (hreq : (g s).requested = s.requested)
    (htraffic : (g s).cache.traffic = φ s.cache.traffic)
    (hsplit : s.cache.HitsSplit → (g s).cache.HitsSplit) :
    Stage.Keeps Host.stage trafficShares (some t) g s (some (φ t)) := by
  intro M hI
  have hnil : (g s).requested = [] := hreq.trans hI.requested
  simp only [Host.stage_takeJobs, hnil, List.map_nil, Multiset.coe_nil, add_zero]
  refine ⟨fun _ hj => absurd hj List.not_mem_nil, ⟨rfl, hsplit hI.split, ?_, fun t' ht' => ?_⟩⟩
  · simpa [Multiset.countP_cons] using hI.callers
  · rcases Multiset.mem_cons.1 ht' with ht' | ht'
    · cases ht'
      rw [htraffic, hI.caller]
    · cases hI.others _ ht'

end Keeps

/-! ## Programs whose every change one relation allows -/

namespace Act

variable {α β : Type} {P : Host → Host → Prop}

/-- From any state, every change the program makes is one `P` allows. -/
def Stays (P : Host → Host → Prop) (f : Act α) : Prop := ∀ h, Stage.Within Host.stage P h f

theorem Stays.bind {f : Act α} {g : α → Act β} (hf : Stays P f) (hg : ∀ a, Stays P (g a)) :
    Stays P (f >>= g) :=
  fun h => (hf h).bind fun a h' => hg a h'

theorem stays_pure (a : α) : Stays P (pure a : Act α) := fun _ => .done

theorem Stays.read {k : Host → Act α} (hk : ∀ h, Stays P (k h)) : Stays P (.read k) :=
  fun h => .read (hk h h)

theorem Stays.wait {d : Option Nat} {r : Host → Bool} {k : Act α} (hk : Stays P k) :
    Stays P (.wait d r k) :=
  fun _ => .wait hk

theorem Stays.buffered {γ δ : Type} {limit : Nat} {start : β → Act γ} {fold : δ → γ → δ}
    {clock : Host → Nat} {items : List β} {init : δ} (hstart : ∀ b, Stays P (start b)) :
    Stays P (Fiber.buffered limit start fold clock items init) :=
  Stage.Within.buffered fun b _ => hstart b

theorem stays_modify {g : Host → Host} (hg : ∀ h, P h (g h)) : Stays P (Fiber.modify g) :=
  fun h => .write (hg h) .done

theorem stays_modifyGet {F : Host → α × Host} (hF : ∀ h, P h (F h).2) : Stays P (Fiber.modifyGet F) :=
  fun h => .read (.write (hF h) .done)

theorem stays_look (f : Host → α) : Stays P (look f) := Stays.read fun _ => stays_pure _

theorem stays_sleep (ms : Nat) : Stays P (sleep ms) := Stays.read fun _ => Stays.wait (stays_pure ())

theorem stays_waitUntil (p : Host → Bool) : Stays P (Fiber.waitUntil p) := Stays.wait (stays_pure ())

theorem stays_memoryOnly : Stays P memoryOnly := stays_look _

/-- A call to the distributed tier stays within `P` when its start and its end do. -/
theorem stays_callTier {call : BackendCall} (hstart : ∀ h, P h (startCall call h).2)
    (hend : ∀ a h, P h (endCall a h).2) : Stays P (callTier call) := by
  unfold callTier
  refine (stays_modifyGet hstart).bind fun admitted => ?_
  split
  · exact stays_pure _
  · -- after the breaker admits the call: an optional wait, then the end of the call
    have hfinish : ∀ a, Stays P (Fiber.modifyGet (endCall a)) := fun a => stays_modifyGet (hend a)
    split
    · exact (stays_sleep _).bind fun _ => hfinish _
    · exact hfinish _

end Act

/-! ## What the traffic does not see -/

namespace Act

variable {α : Type}

/-- From any state, the program changes nothing the traffic sees. -/
def Unheard (f : Act α) : Prop := Stays Host.Unheard f

theorem unheard_changeCache {f : Nat → TieredCache → TieredCache}
    (hf : ∀ now c, TieredCache.Unheard c (f now c)) : Unheard (changeCache f) :=
  stays_modify fun _ => Host.Unheard.of_cache rfl (hf _ _)

theorem unheard_onCache {f : Nat → TieredCache → α × TieredCache}
    (hf : ∀ now c, TieredCache.Unheard c (f now c).2) : Unheard (onCache f) :=
  stays_modifyGet fun _ => Host.Unheard.of_cache rfl (hf _ _)

theorem unheard_callTier (call : BackendCall) : Unheard (callTier call) := by
  refine stays_callTier (fun h => ?_) (fun a h => ?_)
  · -- the breaker's verdict moves the breaker and the backend's count only
    unfold startCall
    split <;> exact Host.Unheard.of_cache rfl ⟨rfl, rfl, rfl⟩
  · unfold endCall
    split
    · exact Host.Unheard.of_cache rfl (TieredCache.Unheard.refl _)
    · exact Host.Unheard.of_cache rfl ⟨DistributedTier.calls_complete _ _ _ _, rfl, rfl⟩

theorem unheard_tierGet (key : String) : Unheard (tierGet key) :=
  (unheard_callTier _).bind fun _ => stays_pure _

theorem unheard_tierSet (key : String) (frame : ByteArray) (ttlMs : Nat) :
    Unheard (tierSet key frame ttlMs) :=
  (unheard_callTier _).bind fun _ => stays_pure _

theorem unheard_tierDelete (key : String) : Unheard (tierDelete key) :=
  (unheard_callTier _).bind fun _ => stays_pure _

theorem unheard_tierDeleteMatching (pattern : String) : Unheard (tierDeleteMatching pattern) := by
  unfold tierDeleteMatching
  split <;> exact (unheard_callTier _).bind fun _ => stays_pure _

theorem unheard_peekRaw (key : String) : Unheard (peekRaw key) := by
  refine (stays_look _).bind fun found => ?_
  split
  · exact stays_pure _
  · refine stays_memoryOnly.bind fun memoryOnly => ?_
    split
    · exact stays_pure _
    · refine (unheard_tierGet key).bind fun r => ?_
      split
      · exact stays_look _
      · exact stays_pure _

theorem unheard_contains (key : String) : Unheard (contains key) := by
  refine (stays_look _).bind fun here => ?_
  split
  · exact stays_pure _
  · refine stays_memoryOnly.bind fun memoryOnly => ?_
    split
    · exact stays_pure _
    · exact (unheard_tierGet key).bind fun r => by split <;> exact stays_pure _

theorem unheard_writeThrough (key : String) (v : ByteArray) (ttlMs : Nat) :
    Unheard (writeThrough key v ttlMs) := by
  refine stays_memoryOnly.bind fun memoryOnly => ?_
  split
  · exact stays_pure _
  · exact (stays_look _).bind fun _ => (unheard_tierSet _ _ _).bind fun _ => stays_pure _

-- Scheduling a write-behind write asks for its job, which the traffic does not see either.
theorem unheard_scheduleWrite (key : String) (v : ByteArray) (ttlMs : Nat) :
    Unheard (scheduleWrite key v ttlMs) := by
  refine stays_memoryOnly.bind fun memoryOnly => ?_
  split
  · exact stays_pure _
  · refine Stays.bind ?_ fun ft => ?_
    · exact stays_modifyGet fun _ => Host.Unheard.of_cache rfl ⟨rfl, rfl, rfl⟩
    · obtain ⟨frame, ticket⟩ := ft
      refine stays_modify fun _ => ⟨fun j hj => ?_, TieredCache.Unheard.refl _⟩
      rcases List.mem_append.1 hj with hj | hj
      · exact .inl hj
      · exact .inr (by simp_all [Job.WritesBehind])

theorem unheard_readAs (sh : Shape) (found : Option ByteArray) : Unheard (readAs sh found) := by
  unfold readAs
  split
  · exact stays_pure _
  · split
    · exact stays_pure _
    · exact (unheard_changeCache fun _ c => TieredCache.unheard_count rfl).bind fun _ => stays_pure _

theorem unheard_sweep : Unheard sweep :=
  unheard_onCache fun _ c => TieredCache.unheard_onMemory c _ (MemoryTier.calls_sweep _ _ _)

theorem unheard_clearLocal : Unheard clearLocal :=
  unheard_changeCache fun _ c => TieredCache.unheard_onMemory c _ (MemoryTier.calls_clear _ _)

theorem unheard_flush : Unheard flush := stays_waitUntil _

theorem unheard_writeBehindJob (key : String) (frame : ByteArray) (ttlMs ticket : Nat) :
    Unheard (writeBehindJob key frame ttlMs ticket) := by
  have hwb : ∀ f : TieredCache → WriteBehind, Unheard (changeCache fun _ c =>
      { c with writeBehind := f c }) :=
    fun f => unheard_changeCache fun _ c => TieredCache.unheard_writeBehind c _
  refine (stays_waitUntil _).bind fun _ => (hwb _).bind fun _ => ?_
  refine (unheard_tierSet _ _ _).bind fun r => (hwb _).bind fun _ => ?_
  -- a failed write is counted, then the write is no longer pending
  extract_lets finish
  split
  · exact (unheard_changeCache fun _ c => TieredCache.unheard_count rfl).bind fun _ => hwb _
  · exact hwb _

end Act

/-! ## What each operation makes of the traffic -/

namespace TieredCache

@[simp] theorem traffic_countSet (c : TieredCache) :
    (c.count fun m => m.set.sample).traffic = c.traffic.set.sample :=
  rfl

@[simp] theorem traffic_removed (c : TieredCache) (key : String) :
    ((c.count Metrics.delete).publish (.delete key)).traffic = c.traffic.removed key :=
  rfl

theorem hitsSplit_publish {c : TieredCache} (h : c.HitsSplit) (e : CacheEvent) : (c.publish e).HitsSplit :=
  h

-- An offer to the trigger queue moves no hit, whether it is taken or dropped.
theorem hitsSplit_offerTrigger {c : TieredCache} (h : c.HitsSplit) (key : String) :
    (c.offerTrigger key).HitsSplit := by
  unfold offerTrigger
  split
  · exact h
  · split
    · exact h
    · exact hitsSplit_of_eq h rfl rfl rfl

end TieredCache

namespace Act

variable {α β : Type}

/-- Run by the caller holding the traffic `t`, from any state, `f` ends holding `F a` when it
answers `a`. -/
def Moves (f : Act α) (t : Traffic) (F : α → Traffic) : Prop :=
  ∀ s, Stage.Runs Host.stage trafficShares (fun a o _ => o = some (F a)) (some t) s f

theorem Moves.bind {f : Act α} {g : α → Act β} {t : Traffic} {F : α → Traffic} {G : β → Traffic}
    (hf : Moves f t F) (hg : ∀ a, Moves (g a) (F a) G) : Moves (f >>= g) t G :=
  fun s => (hf s).bind fun a _ s' ho => ho ▸ hg a s'

theorem moves_pure {a : α} {t : Traffic} {F : α → Traffic} (h : F a = t) : Moves (pure a) t F :=
  fun _ => .done (by rw [h])

theorem Unheard.moves {f : Act α} (hf : Unheard f) (t : Traffic) : Moves f t fun _ => t :=
  fun s => Stage.Runs.of_within (fun _ _ hg => keeps_unheard hg) (fun _ _ => rfl) (hf s)

/-- A change of the cache that moves the traffic by `φ` and keeps the split of hits. -/
theorem moves_changeCache (φ : Traffic → Traffic) {f : Nat → TieredCache → TieredCache}
    (htraffic : ∀ now c, (f now c).traffic = φ c.traffic)
    (hsplit : ∀ now c, c.HitsSplit → (f now c).HitsSplit) (t : Traffic) :
    Moves (changeCache f) t fun _ => φ t :=
  fun _ => Stage.Runs.modify (keeps_heard rfl (htraffic _ _) (hsplit _ _)) rfl

theorem unheard_memoryOnly : Unheard memoryOnly := stays_memoryOnly

theorem unheard_look (f : Host → α) : Unheard (look f) := stays_look f

theorem unheard_countError : Unheard (changeCache fun _ c => c.count Metrics.error) :=
  unheard_changeCache fun _ _ => TieredCache.unheard_count rfl

/-- A lookup counts a hit, in memory or in the distributed tier, exactly when it finds a value. -/
theorem moves_lookup (key : String) (t : Traffic) :
    Moves (lookup key) t fun found => if found.isSome then t.hit else t := by
  unfold lookup
  refine ((unheard_onCache fun _ c => TieredCache.unheard_onMemory c _
    (MemoryTier.calls_get _ _ _ _)).moves t).bind fun here => ?_
  split
  · exact (moves_changeCache Traffic.hit (fun _ c => TieredCache.traffic_memoryHit c)
      (fun _ _ h => TieredCache.hitsSplit_memoryHit h) t).bind fun _ => moves_pure rfl
  · refine (unheard_memoryOnly.moves t).bind fun memoryOnly => ?_
    split
    · exact moves_pure rfl
    · refine ((unheard_tierGet key).moves t).bind fun r => ?_
      split
      · -- a frame found in the distributed tier is a hit only when it decodes
        refine (Unheard.moves (stays_look _) t).bind fun decoded => ?_
        split
        · exact (moves_changeCache Traffic.hit (fun _ c => TieredCache.traffic_rememberHit c _ _ _ _ _)
            (fun _ _ h => TieredCache.hitsSplit_rememberHit h _ _ _ _ _) t).bind fun _ => moves_pure rfl
        · exact (unheard_countError.moves t).bind fun _ => moves_pure rfl
      · exact moves_pure rfl

/-- A read counts a hit when it finds a value and a miss otherwise, and takes a latency sample. -/
theorem moves_getRaw (key : String) (t : Traffic) :
    Moves (getRaw key) t fun found => t.lookedUp found.isSome := by
  unfold getRaw
  refine (moves_lookup key t).bind fun found => ?_
  have hsample : ∀ t', Moves (changeCache fun _ c => c.count Metrics.sample) t' fun _ => t'.sample :=
    moves_changeCache Traffic.sample (fun _ c => TieredCache.traffic_sample c)
      (fun _ _ h => TieredCache.hitsSplit_of_eq h rfl rfl rfl)
  dsimp only
  split
  · next hnone =>
    obtain rfl := Option.isNone_iff_eq_none.1 hnone
    exact (moves_changeCache Traffic.miss (fun _ c => TieredCache.traffic_miss c)
      (fun _ _ h => TieredCache.hitsSplit_of_eq h rfl rfl rfl) _).bind fun _ =>
        (hsample _).bind fun _ => moves_pure rfl
  · next hsome =>
    obtain ⟨v, rfl⟩ := Option.ne_none_iff_exists'.1 (mt Option.isNone_iff_eq_none.2 hsome)
    exact (hsample _).bind fun _ => moves_pure rfl

theorem moves_readAs (sh : Shape) (found : Option ByteArray) (t : Traffic) :
    Moves (readAs sh found) t fun _ => t :=
  (unheard_readAs sh found).moves t

/-- A write counts a write and a latency sample whatever its strategy, and a write that worked is
published and offered to the trigger queue. -/
theorem moves_setRaw (key : String) (v : ByteArray) (ttlMs : Option Nat) (strategy : WriteStrategy)
    (t : Traffic) : Moves (setRaw key v ttlMs strategy) t fun ok => t.wrote key strategy ok := by
  unfold setRaw
  refine ((unheard_look _).moves t).bind fun ttl => ?_
  extract_lets remember finish
  have hremember : Moves remember t fun _ => t :=
    (unheard_changeCache fun now c => TieredCache.unheard_remember c _ _ _ _ _).moves t
  -- once the tiers are written: the write is counted, and published if it worked
  have hfinish : ∀ ok, Moves (finish ok) t fun ok => t.wrote key strategy ok := by
    intro ok
    refine (moves_changeCache (·.set.sample) (fun _ c => TieredCache.traffic_countSet c)
      (fun _ _ h => TieredCache.hitsSplit_of_eq h rfl rfl rfl) t).bind fun _ => ?_
    split
    · next hok =>
      refine (moves_changeCache (fun t => (t.publish (.set key strategy)).offer key)
        (fun _ c => by simp)
        (fun _ _ h => TieredCache.hitsSplit_offerTrigger (TieredCache.hitsSplit_publish h _) key)
        _).bind fun _ => moves_pure ?_
      simp [Traffic.wrote, hok]
    · next hok => exact moves_pure (by simp [Traffic.wrote, hok])
  -- every strategy writes the tiers unheard
  split
  · exact hremember.bind fun _ => ((unheard_writeThrough _ _ _).moves t).bind hfinish
  · exact ((unheard_writeThrough _ _ _).moves t).bind fun _ => hremember.bind fun _ =>
      (moves_pure rfl).bind hfinish
  · exact hremember.bind fun _ => ((unheard_scheduleWrite _ _ _).moves t).bind fun _ =>
      (moves_pure rfl).bind hfinish

/-- A typed write of a value that did not serialize moves nothing the traffic sees. -/
theorem moves_set (key : String) (serialized : Except CacheError ByteArray) (ttlMs : Option Nat)
    (strategy : WriteStrategy) (t : Traffic) :
    Moves (set key serialized ttlMs strategy) t fun ok =>
      match serialized with
      | .ok _ => t.wrote key strategy ok
      | .error _ => t := by
  unfold set
  split
  · exact (unheard_countError.moves t).bind fun _ => moves_pure rfl
  · exact moves_setRaw key _ ttlMs strategy t

/-- A removal is counted and published whatever the distributed tier answered. -/
theorem moves_delete (key : String) (t : Traffic) : Moves (delete key) t fun _ => t.removed key := by
  unfold delete
  refine ((unheard_changeCache fun _ c => TieredCache.unheard_onMemory c _
    (MemoryTier.calls_delete _ _ _)).moves t).bind fun _ => ?_
  refine (unheard_memoryOnly.moves t).bind fun memoryOnly => ?_
  extract_lets finish
  have hfinish : ∀ ok, Moves (finish ok) t fun _ => t.removed key := fun _ =>
    (moves_changeCache (·.removed key) (fun _ c => TieredCache.traffic_removed c key)
      (fun _ _ h => TieredCache.hitsSplit_of_eq h rfl rfl rfl) t).bind fun _ => moves_pure rfl
  split
  · exact (moves_pure rfl).bind hfinish
  · exact ((unheard_tierDelete key).moves t).bind fun _ => (moves_pure rfl).bind hfinish

/-- An invalidation is published with the count it answers. -/
theorem moves_invalidate (pattern : String) (t : Traffic) :
    Moves (invalidate pattern) t fun n => t.publish (.invalidate pattern n) := by
  unfold invalidate
  refine ((unheard_onCache fun _ c => TieredCache.unheard_onMemory c _
    (MemoryTier.calls_removeMatching _ _ _ _)).moves t).bind fun here => ?_
  refine (unheard_memoryOnly.moves t).bind fun memoryOnly => ?_
  extract_lets finish
  have hfinish : ∀ there, Moves (finish there) t fun n => t.publish (.invalidate pattern n) :=
    fun there => (moves_changeCache (·.publish (.invalidate pattern (here + there)))
      (fun _ c => TieredCache.traffic_publish c _) (fun _ _ h => h) t).bind fun _ => moves_pure rfl
  split
  · exact (moves_pure rfl).bind hfinish
  · exact ((unheard_tierDeleteMatching pattern).moves t).bind fun _ => (moves_pure rfl).bind hfinish

end Act

/-! ## Requests -/

/-- A request a caller makes of the cache: one of its calls, a read or a write of typed data, or an
untracked read. -/
inductive Request where
  | call (c : CacheCall)
  /-- Reads a key's value as data of a shape. -/
  | get (key : String) (shape : Shape)
  /-- Reads a key's value as data of a shape, or a default. -/
  | getOr (key : String) (shape : Shape) (dflt : Json)
  /-- Writes a value by a strategy once it is serialized, which may have failed. -/
  | set (key : String) (serialized : Except CacheError ByteArray) (ttlMs : Option Nat)
      (strategy : WriteStrategy)
  /-- Reads a key's serialized value for the cache's own bookkeeping. -/
  | peek (key : String)

/-- What a request answered. A typed read also records the serialized value its lookup found. -/
inductive Reply where
  | answer (a : CallAnswer)
  | value (found : Option ByteArray) (v : Option Json)
  | valueOr (found : Option ByteArray) (v : Json)

namespace Reply

/-- The serialized value a read found. -/
def found : Reply → Option ByteArray
  | answer (.found v) => v
  | value found _ | valueOr found _ => found
  | _ => none

/-- Whether a read gave its caller a value: the serialized value it found, the data that value
read as, or, for a read with a default, always. -/
def gave : Reply → Bool
  | answer (.found v) => v.isSome
  | value _ v => v.isSome
  | valueOr .. => true
  | answer _ => false

end Reply

namespace Request

/-- The cache operation a request makes. A typed read is the read of the serialized value, then
the reading of what it found as the shape. -/
def act : Request → Act Reply
  | call c => return .answer (← c.act)
  | get key sh => do
    let found ← Act.getRaw key
    return .value found (← Act.readAs sh found)
  | getOr key sh dflt => do
    let found ← Act.getRaw key
    return .valueOr found ((← Act.readAs sh found).getD dflt)
  | set key serialized ttlMs strategy => return .answer (.flag (← Act.set key serialized ttlMs strategy))
  | peek key => return .answer (.found (← Act.peekRaw key))

/-- A caller makes its requests one after the other, gives way before each, and logs each with its
reply. -/
def program : List Request → Act (List (Request × Reply))
  | [] => pure []
  | r :: rs => do
    Fiber.giveWay
    let reply ← r.act
    let rest ← program rs
    return (r, reply) :: rest

/-- Whether the request looks a key up, counting a hit or a miss: a raw or a typed read. -/
def looksUp : Request → Bool
  | call (.get _) | get .. | getOr .. => true
  | _ => false

/-- Whether the request writes: a raw write, or a typed one whose value serialized. -/
def writes : Request → Bool
  | call (.set ..) | set _ (.ok _) .. => true
  | _ => false

/-- Whether the request is a removal. -/
def removes : Request → Bool
  | call (.delete _) => true
  | _ => false

/-- The replies a request can give: its call's kind of answer; for a typed read, the value found
read as the shape, and nothing when it does not read; and `false` for a write whose value did not
serialize. -/
inductive Fits : Request → Reply → Prop
  | get (key : String) (found : Option ByteArray) : Fits (call (.get key)) (.answer (.found found))
  | contains (key : String) (b : Bool) : Fits (call (.contains key)) (.answer (.flag b))
  | setRaw (key : String) (v : ByteArray) (ttlMs : Option Nat) (strategy : WriteStrategy) (ok : Bool) :
      Fits (call (.set key v ttlMs strategy)) (.answer (.flag ok))
  | delete (key : String) (ok : Bool) : Fits (call (.delete key)) (.answer (.flag ok))
  | invalidate (pattern : String) (n : Nat) : Fits (call (.invalidate pattern)) (.answer (.count n))
  | sweep (n : Nat) : Fits (call .sweep) (.answer (.count n))
  | clearLocal : Fits (call .clearLocal) (.answer .done)
  | flush : Fits (call .flush) (.answer .done)
  | read (key : String) (sh : Shape) (found : Option ByteArray) :
      Fits (get key sh) (.value found (found.bind fun b => (sh.read b).toOption))
  | readOr (key : String) (sh : Shape) (dflt : Json) (found : Option ByteArray) :
      Fits (getOr key sh dflt) (.valueOr found ((found.bind fun b => (sh.read b).toOption).getD dflt))
  | write (key : String) (v : ByteArray) (ttlMs : Option Nat) (strategy : WriteStrategy) (ok : Bool) :
      Fits (set key (.ok v) ttlMs strategy) (.answer (.flag ok))
  | refuse (key : String) (e : CacheError) (ttlMs : Option Nat) (strategy : WriteStrategy) :
      Fits (set key (.error e) ttlMs strategy) (.answer (.flag false))
  | peek (key : String) (found : Option ByteArray) : Fits (peek key) (.answer (.found found))

/-- What a request and its reply make of the traffic. -/
def effect (r : Request) (reply : Reply) (t : Traffic) : Traffic :=
  match r, reply with
  | call (.get _), .answer (.found found) => t.lookedUp found.isSome
  | call (.set key _ _ strategy), .answer (.flag ok) => t.wrote key strategy ok
  | call (.delete key), _ => t.removed key
  | call (.invalidate pattern), .answer (.count n) => t.publish (.invalidate pattern n)
  | get .., .value found _ | getOr .., .valueOr found _ => t.lookedUp found.isSome
  | set key (.ok _) _ strategy, .answer (.flag ok) => t.wrote key strategy ok
  | _, _ => t

/-- The traffic after a log, from `t`. -/
def effects (log : List (Request × Reply)) (t : Traffic) : Traffic :=
  log.foldl (fun t e => e.1.effect e.2 t) t

@[simp] theorem effects_nil (t : Traffic) : effects [] t = t := rfl

@[simp] theorem effects_cons (e : Request × Reply) (log : List (Request × Reply)) (t : Traffic) :
    effects (e :: log) t = effects log (e.1.effect e.2 t) :=
  rfl

/-! ### Each request makes its effect, and gives a reply that fits it -/

open Act in
theorem moves_call (c : CacheCall) (t : Traffic) : Moves c.act t fun a => (call c).effect (.answer a) t := by
  cases c with
  | get key => exact (moves_getRaw key t).bind fun _ => moves_pure rfl
  | contains key => exact ((unheard_contains key).moves t).bind fun _ => moves_pure rfl
  | set key v ttlMs strategy => exact (moves_setRaw key v ttlMs strategy t).bind fun _ => moves_pure rfl
  | delete key => exact (moves_delete key t).bind fun _ => moves_pure rfl
  | invalidate pattern => exact (moves_invalidate pattern t).bind fun _ => moves_pure rfl
  | sweep => exact (unheard_sweep.moves t).bind fun _ => moves_pure rfl
  | clearLocal => exact (unheard_clearLocal.moves t).bind fun _ => moves_pure rfl
  | flush => exact (unheard_flush.moves t).bind fun _ => moves_pure rfl

open Act in
theorem moves_act (r : Request) (t : Traffic) : Moves r.act t fun reply => r.effect reply t := by
  cases r with
  | call c => exact (moves_call c t).bind fun _ => moves_pure rfl
  | get key sh =>
    exact (moves_getRaw key t).bind fun found => (moves_readAs sh found _).bind fun _ => moves_pure rfl
  | getOr key sh dflt =>
    exact (moves_getRaw key t).bind fun found => (moves_readAs sh found _).bind fun _ => moves_pure rfl
  | set key serialized ttlMs strategy =>
    refine (moves_set key serialized ttlMs strategy t).bind fun _ => moves_pure ?_
    cases serialized <;> rfl
  | peek key => exact ((unheard_peekRaw key).moves t).bind fun _ => moves_pure rfl

/-- Run by the caller from the traffic `t`, the requests end with the log's effects applied to
`t`. -/
theorem moves_program : ∀ (rs : List Request) (t : Traffic), Act.Moves (program rs) t (effects · t)
  | [], _ => Act.moves_pure rfl
  | r :: rs, t => fun s =>
    -- after giving way, the request starts from whatever state the others left
    .pass fun s' _ _ => (moves_act r t s').bind fun reply _ s'' ho => ho ▸
      (moves_program rs _ s'').bind fun rest _ _ ho' => .done (by rw [ho']; rfl)

theorem runs_readAs (sh : Shape) (found : Option ByteArray) (s : Host) :
    Stage.Runs Host.stage freeShares (fun v _ _ => v = found.bind fun b => (sh.read b).toOption) ()
      s (Act.readAs sh found) := by
  unfold Act.readAs
  split
  · exact .done rfl
  · split
    · next hread => exact .done (by simp [hread, Except.toOption])
    · next hread => exact (runs_free _ s).bind fun _ _ _ _ => .done (by simp [hread, Except.toOption])

theorem runs_fits (r : Request) (s : Host) :
    Stage.Runs Host.stage freeShares (fun reply _ _ => r.Fits reply) () s r.act := by
  -- a call's answer is built from what its operation returned
  have hcall : ∀ c, Stage.Runs Host.stage freeShares (fun a _ _ => (call c).Fits (.answer a)) () s
      c.act := by
    intro c
    cases c with
    | get key => exact (runs_free _ s).bind fun found _ _ _ => .done (.get key found)
    | contains key => exact (runs_free _ s).bind fun b _ _ _ => .done (.contains key b)
    | set key v ttlMs strategy =>
      exact (runs_free _ s).bind fun ok _ _ _ => .done (.setRaw key v ttlMs strategy ok)
    | delete key => exact (runs_free _ s).bind fun ok _ _ _ => .done (.delete key ok)
    | invalidate pattern => exact (runs_free _ s).bind fun n _ _ _ => .done (.invalidate pattern n)
    | sweep => exact (runs_free _ s).bind fun n _ _ _ => .done (.sweep n)
    | clearLocal => exact (runs_free _ s).bind fun _ _ _ _ => .done .clearLocal
    | flush => exact (runs_free _ s).bind fun _ _ _ _ => .done .flush
  cases r with
  | call c => exact (hcall c).bind fun _ _ _ ha => .done ha
  | get key sh =>
    exact (runs_free _ s).bind fun found _ s' _ => (runs_readAs sh found s').bind fun _ _ _ hv =>
      .done (hv ▸ .read key sh found)
  | getOr key sh dflt =>
    exact (runs_free _ s).bind fun found _ s' _ => (runs_readAs sh found s').bind fun _ _ _ hv =>
      .done (hv ▸ .readOr key sh dflt found)
  | set key serialized ttlMs strategy =>
    cases serialized with
    | ok v => exact (runs_free _ s).bind fun ok _ _ _ => .done (.write key v ttlMs strategy ok)
    | error e =>
      -- a value that did not serialize is refused before anything is written
      have hrefused : Stage.Runs Host.stage freeShares (fun ok _ _ => ok = false) () s
          (Act.set key (.error e) ttlMs strategy) :=
        (runs_free _ s).bind fun _ _ _ _ => .done rfl
      exact hrefused.bind fun _ _ _ hok => .done (hok ▸ .refuse key e ttlMs strategy)
  | peek key => exact (runs_free _ s).bind fun found _ _ _ => .done (.peek key found)

theorem runs_program_fits : ∀ (rs : List Request) (s : Host),
    Stage.Runs Host.stage freeShares (fun log _ _ => log.map (·.1) = rs ∧ ∀ e ∈ log, e.1.Fits e.2)
      () s (program rs)
  | [], _ => .done ⟨rfl, by simp⟩
  | r :: rs, _ => .pass fun s _ _ => (runs_fits r s).bind fun reply _ s' hr =>
      (runs_program_fits rs s').bind fun rest _ _ ⟨hrs, hfits⟩ =>
        .done ⟨by simp [hrs], by simpa [hr] using hfits⟩

-- The log of a caller's run lists its requests in order, each with a reply that fits it.
theorem fits_of_ends {rs : List Request} {h h' : Host} {log : List (Request × Reply)}
    (hrun : Host.stage.Ends h (program rs) log h') : log.map (·.1) = rs ∧ ∀ e ∈ log, e.1.Fits e.2 := by
  have hjobs : ∀ j, freeShares.Spawnable j →
      Host.stage.Poised freeShares (freeShares.hold j) (Host.stage.launch j) :=
    fun j _ s _ _ => runs_free _ s
  obtain ⟨_, _, hlog, -⟩ := Stage.Runs.ends hjobs (fun _ _ _ _ _ => trivial)
    (fun s _ _ => runs_program_fits rs s) trivial hrun
  exact hlog

end Request

/-! ## The traffic after any run -/

/-- Whatever the write-behind jobs do and however the clock moves, a caller's requests leave the
cache reporting the log's effects applied in order to the traffic it began with, and every hit
split between the tiers. -/
theorem traffic_of_ends {h h' : Host} {rs : List Request} {log : List (Request × Reply)}
    (hreq : h.requested = []) (hsplit : h.cache.HitsSplit)
    (hrun : Host.stage.Ends h (Request.program rs) log h') :
    h'.cache.traffic = Request.effects log h.cache.traffic ∧ h'.cache.HitsSplit := by
  -- a write-behind job runs unheard from any state, holding nothing
  have hjobs : ∀ j, trafficShares.Spawnable j →
      Host.stage.Poised trafficShares (trafficShares.hold j) (Host.stage.launch j) := by
    intro j hj s M hI
    cases j with
    | writeBehind key frame ttl ticket =>
      exact (Stage.Runs.of_within (fun _ _ hg => keeps_unheard hg) (fun _ _ => trivial)
        (Act.unheard_writeBehindJob key frame ttl ticket s)).resume hI
    | warm => exact hj.elim
    | loop => exact hj.elim
  -- the clock is no part of what the cache reports
  have hclock : ∀ s t S, Host.stage.clock s ≤ t → trafficShares.Inv s S →
      trafficShares.Inv (Host.stage.setClock s t) S :=
    fun _ _ _ _ hI => ⟨hI.requested, hI.split, hI.callers, hI.traffic⟩
  have hI : Reported h {some h.cache.traffic} :=
    ⟨hreq, hsplit, (Multiset.countP_le_card _ _).trans_eq (Multiset.card_singleton _),
      fun t ht => (Option.some.inj (Multiset.mem_singleton.1 ht)).symm⟩
  obtain ⟨o', S, ho', hI'⟩ := Stage.Runs.ends hjobs hclock
    (fun s _ _ => Request.moves_program rs h.cache.traffic s) hI hrun
  subst ho'
  exact ⟨hI'.caller, hI'.split⟩

end TierCache
