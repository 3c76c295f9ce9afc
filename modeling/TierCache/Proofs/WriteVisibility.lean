import TierCache.Proofs.AmidOthers
import TierCache.Proofs.CacheTraffic
import TierCache.Proofs.MemoryRefinement

/-!
# A written value reads back until it expires

Main statement: `written_value_read_back`, while the others spare the key (`Host.Spares`).
-/

namespace TierCache

namespace MemoryTier

theorem find?_drop_self (t : MemoryTier) (key : String) : (t.drop key).find? key = none := by
  unfold drop
  split
  · show (t.items.filter fun e => e.1 != key).lookup key = none
    rw [lookup_filter_key t.items (· != key)]
    simp
  · assumption

/-- Whatever a set evicts, it leaves the new item under its key: the key is dropped and then
stored last. -/
theorem find?_set_self (t : MemoryTier) (m : Metrics) (key : String) (value : ByteArray)
    (ttlMs : Nat) (origin : Origin) (now : Nat) :
    ∃ item, (t.set m key value ttlMs origin now).2.1.find? key = some item ∧ item.value = value ∧
      item.expires = now + max ttlMs 1 := by
  have hdrop : ∀ t' : MemoryTier, (t'.drop key).items.lookup key = none :=
    fun t' => find?_drop_self t' key
  simp only [set, find?, List.lookup_append, hdrop, Option.none_or, List.lookup_cons, beq_self_eq_true]
  exact ⟨_, rfl, rfl, rfl⟩

theorem get_of_live {t : MemoryTier} {m : Metrics} {key : String} {now : Nat} {item : Item}
    (hf : t.find? key = some item) (hlive : now < item.expires) :
    (t.get m key now).1 = some item.value := by
  have hfresh : item.expiredAt now = false := by
    simpa [Item.expiredAt] using hlive
  simp [get, hf, hfresh]

end MemoryTier

namespace Host

/-- The memory tier holds `v` under `key`, in an item that lasts until `e` at least, for as long as
the clock is before `e`. -/
def Retains (key : String) (v : ByteArray) (e : Nat) (h : Host) : Prop :=
  h.clock < e → ∃ item, h.cache.memory.find? key = some item ∧ item.value = v ∧ e ≤ item.expires

/-- A move that leaves `key` alone: the clock does not go back, and what the memory tier holds
under `key` until some time it still holds until then. -/
def Spares (key : String) (h h' : Host) : Prop :=
  h.clock ≤ h'.clock ∧ ∀ v e, h.Retains key v e → h'.Retains key v e

variable {key : String} {v : ByteArray} {e : Nat} {h h₁ h₂ : Host}

theorem Retains.anti {e' : Nat} (hr : h.Retains key v e) (he : e' ≤ e) : h.Retains key v e' := by
  intro hlt
  obtain ⟨item, hf, hv, hx⟩ := hr (by omega)
  exact ⟨item, hf, hv, by omega⟩

theorem Spares.refl (key : String) (h : Host) : h.Spares key h := ⟨Nat.le_refl _, fun _ _ hr => hr⟩

theorem Spares.trans (h₀₁ : h.Spares key h₁) (h₁₂ : h₁.Spares key h₂) : h.Spares key h₂ :=
  ⟨Nat.le_trans h₀₁.1 h₁₂.1, fun v e hr => h₁₂.2 v e (h₀₁.2 v e hr)⟩

/-- A change that moves neither the clock nor the memory tier's entries leaves every key alone. -/
theorem Spares.of_items (hclock : h₁.clock = h.clock)
    (hitems : h₁.cache.memory.items = h.cache.memory.items) : h.Spares key h₁ := by
  refine ⟨Nat.le_of_eq hclock.symm, fun v e hr hlt => ?_⟩
  have hfind : h₁.cache.memory.find? key = h.cache.memory.find? key := by
    simp only [MemoryTier.find?, hitems]
  rw [hfind]
  exact hr (hclock ▸ hlt)

theorem spares_setClock {t : Nat} (ht : h.clock ≤ t) : h.Spares key { h with clock := t } :=
  ⟨ht, fun _ _ hr hlt => hr (Nat.lt_of_le_of_lt ht hlt)⟩

theorem spares_takeJobs (h : Host) : h.Spares key (Host.stage.takeJobs h).2 := .of_items rfl rfl

/-- A set's memory write keeps the value under the key for its time to live from the clock. -/
theorem retains_remember (h : Host) (key : String) (v : ByteArray) (ttl : Nat) :
    Retains key v (h.clock + max ttl 1)
      { h with cache := h.cache.remember key v ttl .memory h.clock } := by
  intro _
  obtain ⟨item, hf, hv, hx⟩ :=
    h.cache.memory.find?_set_self h.cache.metrics key v ttl .memory h.clock
  exact ⟨item, hf, hv, Nat.le_of_eq hx.symm⟩

end Host

namespace Act

open Stage

variable {α : Type} {key : String} {R : Host → Host → Prop} {s s' : Host}

/-! ## What leaves a key alone -/

/-- A program whose every change leaves `key` alone, run amid others that leave it alone too. -/
theorem Stays.spares {f : Act α} (hf : Stays (Host.Spares key) f) {a : α}
    (h : Host.stage.Amid (Host.Spares key) s f a s') : s.Spares key s' :=
  Amid.keeps (Host.Spares.refl key) (fun h₀₁ h₁₂ => h₀₁.trans h₁₂) id
    (fun h => Host.spares_takeJobs h) (hf s) h

theorem spares_changeCache {f : Nat → TieredCache → TieredCache}
    (hf : ∀ now c, (f now c).memory = c.memory) : Stays (Host.Spares key) (changeCache f) :=
  stays_modify fun h => .of_items rfl (congrArg MemoryTier.items (hf h.clock h.cache))

-- The breaker's verdict and the end of a call move the distributed tier and the counters only.
theorem spares_callTier (call : BackendCall) : Stays (Host.Spares key) (callTier call) := by
  refine stays_callTier (fun h => ?_) (fun a h => ?_)
  · unfold startCall
    split <;> exact .of_items rfl rfl
  · unfold endCall
    split <;> exact .of_items rfl rfl

theorem spares_writeThrough (k : String) (v : ByteArray) (ttl : Nat) :
    Stays (Host.Spares key) (writeThrough k v ttl) := by
  refine stays_memoryOnly.bind fun memoryOnly => ?_
  split
  · exact stays_pure _
  · exact (stays_look _).bind fun _ => Stays.bind (f := tierSet _ _ _)
      ((spares_callTier _).bind fun _ => stays_pure _) fun _ => stays_pure _

theorem spares_scheduleWrite (k : String) (v : ByteArray) (ttl : Nat) :
    Stays (Host.Spares key) (scheduleWrite k v ttl) := by
  refine stays_memoryOnly.bind fun memoryOnly => ?_
  split
  · exact stays_pure _
  · refine (stays_modifyGet fun h => .of_items rfl rfl).bind fun ticket => ?_
    cases ticket
    exact stays_modify fun h => .of_items rfl rfl

/-! ## The set and the read -/

/-- Whatever its strategy and however its distributed write ends, a set run amid others that leave
its key alone leaves the value in memory until its time to live has run out from the moment it
began. -/
theorem setRaw_retains {v : ByteArray} {ttl : Nat} {strategy : WriteStrategy} {ok : Bool}
    (hrun : Host.stage.Amid (Host.Spares key) s (setRaw key v (some ttl) strategy) ok s') :
    s'.Retains key v (s.clock + max ttl 1) := by
  unfold setRaw at hrun
  obtain ⟨ttl', s₁, hlook, hrest⟩ := Amid.of_bind hrun
  obtain ⟨rfl, rfl⟩ := Amid.read_done hlook
  extract_lets remember finish at hrest
  -- once the tiers are written: the write is counted, and published if it worked
  have hfinish : ∀ ok, Stays (Host.Spares key) (finish ok) := by
    intro ok
    refine (spares_changeCache fun _ _ => by rfl).bind fun _ => ?_
    split
    · refine (spares_changeCache fun _ c => ?_).bind fun _ => stays_pure _
      unfold TieredCache.offerTrigger
      split
      · rfl
      · split <;> rfl
    · exact stays_pure _
  -- the memory write comes first, or after the distributed write, which leaves the key alone
  cases strategy with
  | cacheAside =>
    obtain ⟨ok', s₂, hwrite, hfin⟩ := Amid.of_bind (Amid.modify_bind hrest)
    have hkept := Host.spares_takeJobs _ |>.trans ((spares_writeThrough key v _).spares hwrite)
      |>.trans ((hfinish ok').spares hfin)
    exact hkept.2 v _ (Host.retains_remember _ key v _)
  | writeThrough =>
    obtain ⟨ok', s₂, hwrite, hrest⟩ := Amid.of_bind hrest
    have hearly := (spares_writeThrough key v _).spares hwrite
    have hkept := Host.spares_takeJobs _ |>.trans ((hfinish ok').spares (Amid.modify_bind hrest))
    exact (hkept.2 v _ (Host.retains_remember s₂ key v _)).anti (by have := hearly.1; omega)
  | writeBehind =>
    obtain ⟨u, s₂, hbehind, hfin⟩ := Amid.of_bind (Amid.modify_bind hrest)
    have hkept := Host.spares_takeJobs _ |>.trans ((spares_scheduleWrite key v _).spares hbehind)
      |>.trans ((hfinish true).spares hfin)
    exact hkept.2 v _ (Host.retains_remember _ key v _)

/-- A read answers what the lookup in the tiers found. -/
theorem getRaw_found {r : Option ByteArray} (hrun : Host.stage.Amid R s (getRaw key) r s') :
    ∃ s₁, Host.stage.Amid R s (lookup key) r s₁ := by
  unfold getRaw at hrun
  obtain ⟨found, s₁, hlookup, hrest⟩ := Amid.of_bind hrun
  extract_lets count at hrest
  -- after the lookup only the counters move, and the answer is what was found
  have hcount : ∀ {s₂ s₃ : Host} {a : Option ByteArray} (u : Unit),
      Host.stage.Amid R s₂ (count u) a s₃ → a = found := by
    intro s₂ s₃ a u h
    have hdone := Amid.modify_bind h
    exact (Amid.done_iff.1 hdone).1
  split at hrest
  · obtain ⟨u, s₂, -, hrest⟩ := Amid.of_bind hrest
    exact hcount u hrest ▸ ⟨s₁, hlookup⟩
  · exact hcount () hrest ▸ ⟨s₁, hlookup⟩

/-- A read that begins while the memory tier holds a live item for the key answers its value,
whatever the others do: the memory tier is looked at first, in the read's first step. -/
theorem getRaw_of_retains {v : ByteArray} {e : Nat} {r : Option ByteArray}
    (hr : s.Retains key v e) (hlt : s.clock < e) (hrun : Host.stage.Amid R s (getRaw key) r s') :
    r = some v := by
  obtain ⟨item, hf, rfl, hx⟩ := hr hlt
  obtain ⟨s₁, hlookup⟩ := getRaw_found hrun
  unfold lookup at hlookup
  have hhit := Amid.modifyGet_bind hlookup
  have hget : (s.cache.memory.get s.cache.metrics key s.clock).1 = some item.value :=
    MemoryTier.get_of_live hf (by omega)
  simp only [TieredCache.onMemory, hget] at hhit
  have hdone := Amid.modify_bind hhit
  exact (Amid.done_iff.1 hdone).1

/-- A value written reads back until its time to live runs out: a read that begins, after a set
and before the time to live has run out from the set's start, answers the value written, whatever
the set answered and whatever the distributed tier did, as long as nothing else touched the key
during the set and until the read. -/
theorem written_value_read_back {v : ByteArray} {ttl : Nat} {strategy : WriteStrategy} {ok : Bool}
    {r : Option ByteArray} {h₀ h₁ h₂ h₃ : Host}
    (hset : Host.stage.Amid (Host.Spares key) h₀ (setRaw key v (some ttl) strategy) ok h₁)
    (hbetween : h₁.Spares key h₂) (hget : Host.stage.Amid R h₂ (getRaw key) r h₃)
    (hlive : h₂.clock < h₀.clock + max ttl 1) : r = some v :=
  getRaw_of_retains (hbetween.2 v _ (setRaw_retains hset)) hlive hget

/-- A host whose distributed tier fails every call after 30 ms. -/
def failingTierHost : Host :=
  { cache := { TieredCache.create .lz4 {} true with
      distributed := (TieredCache.create .lz4 {} true).distributed.map fun t =>
        { t with backend := { t.backend with failing := true, latency := some 30 } } } }

/-- A write-through set whose distributed write fails answers false, and the value still reads
back 30 ms later, when the failed call has ended. -/
theorem failed_write_through_reads_back :
    ∃ h₁ r h₃, Host.stage.Amid (Host.Spares "k") failingTierHost
        (setRaw "k" "v".toUTF8 (some 100) .writeThrough) false h₁ ∧ h₁.Spares "k" h₁ ∧
      Host.stage.Amid (Host.Spares "k") h₁ (getRaw "k") r h₃ ∧
      h₁.clock < failingTierHost.clock + max 100 1 ∧ r = some "v".toUTF8 := by
  -- the set and then the read, run alone; the read starts where the set ends
  have hrun : (Host.stage.alone 100 failingTierHost (do
      let ok ← setRaw "k" "v".toUTF8 (some 100) .writeThrough
      let t ← now
      let r ← getRaw "k"
      pure (ok, t, r))).map Prod.fst = some (false, 30, some "v".toUTF8) := by rfl
  obtain ⟨⟨⟨ok, t, r⟩, h₃⟩, hres, hval⟩ := Option.map_eq_some_iff.1 hrun
  have hamid := Amid.of_alone (R := Host.Spares "k") (fun h => Host.Spares.refl "k" h)
    (fun _ _ ht => Host.spares_setClock ht) (fun _ _ => rfl) hres
  obtain ⟨ok₁, h₁, hset, hrest⟩ := Amid.of_bind hamid
  obtain ⟨t₁, h₂, hnow, hrest⟩ := Amid.of_bind hrest
  obtain ⟨ht₁, hh₂⟩ := Amid.read_done hnow
  rw [hh₂] at hrest
  obtain ⟨r₁, h₃', hget, hdone⟩ := Amid.of_bind hrest
  obtain ⟨hans, -⟩ := Amid.done_iff.1 hdone
  simp only [Prod.mk.injEq] at hans hval
  obtain ⟨rfl, rfl, rfl⟩ := hans
  obtain ⟨rfl, hclock, rfl⟩ := hval
  have hlive : h₁.clock < failingTierHost.clock + max 100 1 := by
    rw [← ht₁, hclock]
    decide
  exact ⟨h₁, _, h₃', hset, .refl _ _, hget, hlive,
    written_value_read_back hset (.refl _ _) hget hlive⟩

end Act

end TierCache
