import TierCache.Proofs.LiteralPatterns
import TierCache.Proofs.BreakerRun
import TierCache.Frame.Lz4Compress

/-!
# Invalidating twice

An invalidation made again at once finds nothing left, or fails as the first did
(`DistributedTier.Spent`), while the others leave both tiers alone (`Host.KeepsTiers`).

Main statement: `repeated_invalidation_removes_nothing`.
-/

namespace TierCache

/-! ## The memory tier -/

namespace MemoryTier

variable {t : MemoryTier} {pattern : String}

theorem mem_drop {k : String} {e : String × Item} (he : e ∈ (t.drop k).items) :
    e ∈ t.items ∧ e.1 ≠ k := by
  unfold drop at he
  split at he
  · obtain ⟨he, hne⟩ := List.mem_filter.1 he
    exact ⟨he, by simpa using hne⟩
  · next hnone =>
    refine ⟨he, fun hk => ?_⟩
    have hne := (List.lookup_eq_none_iff.1 hnone) e he
    simp [hk] at hne

theorem mem_foldl_drop (l : List (String × Item)) {t : MemoryTier} {e : String × Item}
    (he : e ∈ (l.foldl (fun t (k, _) => t.drop k) t).items) : e ∈ t.items ∧ e.1 ∉ l.map (·.1) := by
  induction l generalizing t with
  | nil => exact ⟨he, by simp⟩
  | cons x l ih =>
    obtain ⟨k, v⟩ := x
    obtain ⟨he₁, hnot⟩ := ih he
    obtain ⟨he₂, hne⟩ := mem_drop he₁
    exact ⟨he₂, by simp [hne, hnot]⟩

/-- A removal by a pattern leaves no key the pattern matches, expired or not. -/
theorem removeMatching_clears (t : MemoryTier) (m : Metrics) (pattern : String) (now : Nat) :
    ∀ e ∈ (t.removeMatching m pattern now).2.1.items, globMatch pattern e.1 = false := by
  intro e he
  unfold removeMatching at he
  dsimp only at he
  split at he
  · next hempty =>
    have hnone := List.filter_eq_nil_iff.1 (List.isEmpty_iff.1 hempty) e he
    simpa using hnone
  · -- a matching key would be among those dropped
    obtain ⟨he, hnot⟩ := mem_foldl_drop _ he
    by_contra hmatch
    exact hnot (List.mem_map_of_mem (List.mem_filter.2 ⟨he, by simpa using hmatch⟩))

/-- With no key the pattern matches, a removal finds nothing and changes nothing. -/
theorem removeMatching_of_cleared (m : Metrics) (now : Nat)
    (h : ∀ e ∈ t.items, globMatch pattern e.1 = false) : t.removeMatching m pattern now = (0, t, m) := by
  have hnone : (t.items.filter fun e => globMatch pattern e.1) = [] :=
    List.filter_eq_nil_iff.2 fun e he => by simp [h e he]
  simp [removeMatching, hnone]

end MemoryTier

/-! ## The backend -/

/-- The call the distributed tier sends to remove a pattern: a scan, or, for a pattern without
glob characters, a delete of the one key it matches. -/
def BackendCall.Removes (pattern : String) (c : BackendCall) : Prop :=
  c = .deleteMatching pattern ∨ (c = .delete pattern ∧ Glob.isPattern pattern = false)

/-- A removal's answer that reports nothing removed: an error, a count of none, or a key that was
not there. -/
def RemovedNothing (r : Except CacheError BackendReply) : Prop :=
  (∃ e, r = .error e) ∨ r = .ok (.count 0) ∨ r = .ok (.removed false)

namespace Backend

variable {pattern : String} {c : BackendCall}

/-- A removal leaves no stored key the pattern matches. -/
theorem act_clears (hc : c.Removes pattern) (b : Backend) (now : Nat) :
    ∀ e ∈ (b.act c now).1.store, globMatch pattern e.1 = false := by
  intro e he
  rcases hc with rfl | ⟨rfl, hplain⟩
  · simp only [act, foldl_without_eq] at he
    obtain ⟨he, hnot⟩ := List.mem_filter.1 he
    by_contra hmatch
    exact of_decide_eq_true hnot (List.mem_map_of_mem (List.mem_filter.2 ⟨he, by simpa using hmatch⟩))
  · obtain ⟨-, hne⟩ := List.mem_filter.1 he
    by_contra hmatch
    exact absurd ((globMatch_of_plain hplain e.1).1 (by simpa using hmatch)) (by simpa using hne)

/-- On a store holding no key the pattern matches, a removal changes nothing and finds nothing. -/
theorem act_of_cleared (hc : c.Removes pattern) {b : Backend} (now : Nat)
    (h : ∀ e ∈ b.store, globMatch pattern e.1 = false) :
    (b.act c now).1 = b ∧ ((b.act c now).2 = .count 0 ∨ (b.act c now).2 = .removed false) := by
  rcases hc with rfl | ⟨rfl, hplain⟩
  · have hnone : (b.store.filter fun e => globMatch pattern e.1) = [] :=
      List.filter_eq_nil_iff.2 fun e he => by simp [h e he]
    simp [act, hnone]
  · -- no stored key is the pattern itself
    have hne : ∀ e ∈ b.store, e.1 ≠ pattern := fun e he hk => by
      simpa [h e he] using (globMatch_of_plain hplain e.1).2 hk
    have hkeep : b.store.filter (·.1 != pattern) = b.store :=
      List.filter_eq_self.2 fun e he => bne_iff_ne.2 (hne e he)
    have hlookup : b.store.lookup pattern = none :=
      List.lookup_eq_none_iff.2 fun e he => bne_iff_ne.2 (hne e he).symm
    simp [act, without, hkeep, hlookup]

end Backend

/-! ## The distributed tier -/

namespace DistributedTier

/-- A removal by `pattern` from this tier, started at `now`, removes nothing: its store holds no key
the pattern matches, or the breaker refuses the call, or the call times out, or the backend fails
it. -/
def Spent (pattern : String) (d : DistributedTier) (now : Nat) : Prop :=
  (∀ e ∈ d.backend.store, globMatch pattern e.1 = false) ∨ (d.breaker.permits now).1 = false ∨
    d.backend.latency.any (· > d.timeoutMs) = true ∨ d.backend.failing = true

variable {d : DistributedTier} {c : BackendCall} {now : Nat} {a : Admitted}

/-- A call the breaker admits is counted and nothing else of the backend changes; it times out
exactly when the backend's delay exceeds the timeout. -/
theorem start_admitted (h : (d.start c now).2 = some a) :
    (d.breaker.permits now).1 = true ∧ a.call = c ∧
      a.timedOut = d.backend.latency.any (· > d.timeoutMs) ∧
      (d.start c now).1.backend = { d.backend with stats := c.count d.backend.stats } ∧
      (d.start c now).1.timeoutMs = d.timeoutMs := by
  unfold start at h ⊢
  cases hp : d.breaker.permits now with
  | mk admitted breaker =>
    cases admitted with
    | false => simp [hp] at h
    | true =>
      simp only [hp, Bool.not_true, Bool.false_eq_true, if_false, Option.some.injEq] at h ⊢
      subst h
      simp

/-- An admitted call goes through exactly when it neither times out nor meets a failing backend;
then it acts on the store, and otherwise it leaves the backend as it was. -/
theorem complete_cases (d : DistributedTier) (m : Metrics) (a : Admitted) (now : Nat) :
    (a.timedOut = false ∧ d.backend.failing = false ∧
        (d.complete m a now).1.backend = (d.backend.act a.call now).1 ∧
        (d.complete m a now).2.2 = .ok (d.backend.act a.call now).2) ∨
      ((a.timedOut = true ∨ d.backend.failing = true) ∧
        (d.complete m a now).1.backend = d.backend ∧ ∃ e, (d.complete m a now).2.2 = .error e) := by
  unfold complete outcome
  by_cases ht : a.timedOut = true
  · exact .inr ⟨.inl ht, by simp [ht, settle]⟩
  · by_cases hf : d.backend.failing = true
    · exact .inr ⟨.inr hf, by simp [ht, hf, settle]⟩
    · exact .inl ⟨by simpa using ht, by simpa using hf, by simp [ht, hf, settle]⟩

/-- However a removal the breaker admitted ends, it leaves the tier spent: a call that went through
cleared the store, and one that did not will fail the same way again. -/
theorem complete_spent {pattern : String} (hc : a.call.Removes pattern)
    (htimed : a.timedOut = d.backend.latency.any (· > d.timeoutMs)) (m : Metrics) (now now' : Nat) :
    (d.complete m a now).1.Spent pattern now' := by
  have htimeout : (d.complete m a now).1.timeoutMs = d.timeoutMs := by
    unfold complete settle
    split <;> rfl
  rcases complete_cases d m a now with ⟨-, -, hb, -⟩ | ⟨hfail, hb, -⟩
  · exact .inl (hb ▸ Backend.act_clears hc d.backend now)
  · rcases hfail with ht | hf
    · exact .inr (.inr (.inl (by rw [hb, htimeout, ← htimed, ht])))
    · exact .inr (.inr (.inr (by rw [hb, hf])))

/-- A removal admitted on a spent tier ends with the store as it was, answering an error or
nothing removed. -/
theorem complete_of_spent {pattern : String} (hc : a.call.Removes pattern)
    (hspent : (∀ e ∈ d.backend.store, globMatch pattern e.1 = false) ∨ a.timedOut = true ∨
      d.backend.failing = true) (m : Metrics) (now : Nat) :
    (d.complete m a now).1.backend.store = d.backend.store ∧ RemovedNothing (d.complete m a now).2.2 := by
  rcases complete_cases d m a now with ⟨ht, hf, hb, hr⟩ | ⟨-, hb, hr⟩
  · -- the call went through, so the store held no match
    have hclear : ∀ e ∈ d.backend.store, globMatch pattern e.1 = false := by
      rcases hspent with h | h | h
      · exact h
      · simp [ht] at h
      · simp [hf] at h
    obtain ⟨hsame, hreply⟩ := Backend.act_of_cleared hc now hclear
    rw [hb, hr, hsame]
    rcases hreply with h | h <;> simp [h, RemovedNothing]
  · exact ⟨by rw [hb], .inl hr⟩

end DistributedTier

/-! ## Calls amid others that leave the tiers alone -/


namespace Host

/-- A move of the other fibers that leaves both tiers as they are. -/
def KeepsTiers (h h' : Host) : Prop :=
  h'.cache.memory = h.cache.memory ∧ h'.cache.distributed = h.cache.distributed

/-- The memory tier holds no key the pattern matches. -/
def Cleared (pattern : String) (h : Host) : Prop :=
  ∀ e ∈ h.cache.memory.items, globMatch pattern e.1 = false

/-- A removal by the pattern from the distributed tier, if there is one, started now, removes
nothing. -/
def TierSpent (pattern : String) (h : Host) : Prop :=
  ∀ d, h.cache.distributed = some d → d.Spent pattern h.clock

theorem KeepsTiers.refl (h : Host) : h.KeepsTiers h := ⟨rfl, rfl⟩

theorem KeepsTiers.trans {h₁ h₂ h₃ : Host} (h₁₂ : h₁.KeepsTiers h₂) (h₂₃ : h₂.KeepsTiers h₃) :
    h₁.KeepsTiers h₃ :=
  ⟨h₂₃.1.trans h₁₂.1, h₂₃.2.trans h₁₂.2⟩

end Host

namespace Act

open Stage

variable {R : Host → Host → Prop} {s s' : Host} {pattern : String}

theorem startCall_of_none {call : BackendCall} (hs : s.cache.distributed = none) :
    startCall call s = (none, s) := by
  simp [startCall, hs]

theorem startCall_of_some {call : BackendCall} {d : DistributedTier} (hs : s.cache.distributed = some d) :
    startCall call s =
      ((d.start call s.clock).2, { s with cache := { s.cache with distributed := some (d.start call s.clock).1 } }) := by
  simp [startCall, hs]

theorem endCall_of_some {a : DistributedTier.Admitted} {d : DistributedTier}
    (hs : s.cache.distributed = some d) :
    (endCall a s).1 = (d.complete s.cache.metrics a s.clock).2.2 ∧
      (endCall a s).2.cache.distributed = some (d.complete s.cache.metrics a s.clock).1 := by
  simp [endCall, hs]

@[simp] theorem startCall_memory (call : BackendCall) (s : Host) :
    (startCall call s).2.cache.memory = s.cache.memory := by
  unfold startCall
  split <;> rfl

-- The start of a call counts it and may move the breaker; the store stays as it was.
theorem startCall_stores (call : BackendCall) (s : Host) :
    (startCall call s).2.cache.distributed.map (·.backend.store) =
      s.cache.distributed.map (·.backend.store) := by
  cases hs : s.cache.distributed with
  | none => simp [startCall_of_none hs, hs]
  | some d => simp [startCall_of_some hs]

-- A call the breaker admitted was started on the distributed tier there is.
theorem startCall_admitted {call : BackendCall} {a : DistributedTier.Admitted}
    (hsome : (startCall call s).1 = some a) :
    ∃ d, s.cache.distributed = some d ∧ (d.start call s.clock).2 = some a ∧
      (startCall call s).2.cache.distributed = some (d.start call s.clock).1 := by
  cases hs : s.cache.distributed with
  | none =>
    rw [startCall_of_none hs] at hsome
    cases hsome
  | some d =>
    rw [startCall_of_some hs] at hsome ⊢
    exact ⟨d, rfl, hsome, rfl⟩

@[simp] theorem endCall_memory (a : DistributedTier.Admitted) (s : Host) :
    (endCall a s).2.cache.memory = s.cache.memory := by
  unfold endCall
  split <;> rfl

-- A wait amid others that leave the tiers alone leaves the tiers alone.
theorem sleep_keepsTiers (hR : ∀ s s', R s s' → s.KeepsTiers s') {ms : Nat} {u : Unit}
    (h : Host.stage.Amid R s (sleep ms) u s') : s.KeepsTiers s' := by
  cases h with
  | read h =>
    cases h with
    | wait hmove _ hdone =>
      obtain ⟨-, rfl⟩ := Amid.done_iff.1 hdone
      exact hR _ _ hmove

/-- A call to the distributed tier amid others that leave the tiers alone: the breaker refuses it
at once, or it ends, in the state its start left, with the end of the call. Either way the memory
tier is untouched. -/
theorem callTier_ends (hR : ∀ s s', R s s' → s.KeepsTiers s') {call : BackendCall}
    {r : Except CacheError BackendReply} (hrun : Host.stage.Amid R s (callTier call) r s') :
    ((startCall call s).1 = none ∧ r = .error .circuitOpen ∧ s'.cache = (startCall call s).2.cache ∧
        s'.clock = s.clock) ∨
      ∃ a h, (startCall call s).1 = some a ∧ (startCall call s).2.KeepsTiers h ∧
        r = (endCall a h).1 ∧ s'.cache = (endCall a h).2.cache := by
  unfold callTier at hrun
  obtain ⟨admitted, s₁, hstart, hrest⟩ := Amid.of_bind hrun
  obtain ⟨hadmitted, rfl⟩ := Amid.modifyGet hstart
  cases admitted with
  | none =>
    obtain ⟨hr, rfl⟩ := Amid.done_iff.1 hrest
    have hclock : (startCall call s).2.clock = s.clock := by
      unfold startCall
      split <;> rfl
    exact .inl ⟨hadmitted.symm, hr, rfl, hclock⟩
  | some a =>
    -- the call ends wherever the others left the state while the caller waited
    have hfinish : ∀ {s₂ : Host}, (startCall call s).2.KeepsTiers s₂ →
        Host.stage.Amid R s₂ (Fiber.modifyGet (endCall a)) r s' →
        ∃ a' h, (startCall call s).1 = some a' ∧ (startCall call s).2.KeepsTiers h ∧
          r = (endCall a' h).1 ∧ s'.cache = (endCall a' h).2.cache := by
      intro s₂ hkeep hend
      obtain ⟨hr, rfl⟩ := Amid.modifyGet hend
      exact ⟨a, s₂, hadmitted.symm, hkeep, hr, rfl⟩
    have hjobs : (startCall call s).2.KeepsTiers (Host.stage.takeJobs (startCall call s).2).2 :=
      ⟨rfl, rfl⟩
    cases hw : a.waitMs with
    | some ms =>
      simp only [hw] at hrest
      obtain ⟨u, s₂, hsleep, hend⟩ := Amid.of_bind hrest
      exact .inr (hfinish (hjobs.trans (sleep_keepsTiers hR hsleep)) hend)
    | none =>
      simp only [hw] at hrest
      exact .inr (hfinish hjobs hrest)

theorem callTier_memory (hR : ∀ s s', R s s' → s.KeepsTiers s') {call : BackendCall}
    {r : Except CacheError BackendReply} (hrun : Host.stage.Amid R s (callTier call) r s') :
    s'.cache.memory = s.cache.memory := by
  rcases callTier_ends hR hrun with ⟨-, -, hcache, -⟩ | ⟨a, h, -, hkeep, -, hcache⟩
  · rw [hcache, startCall_memory]
  · rw [hcache, endCall_memory, hkeep.1, startCall_memory]

/-- A call that removes the pattern, made amid others that leave the tiers alone, leaves the
distributed tier spent and the memory tier as it was. -/
theorem tierSpent_of_callTier (hR : ∀ s s', R s s' → s.KeepsTiers s') {call : BackendCall}
    (hc : call.Removes pattern) {r : Except CacheError BackendReply}
    (hrun : Host.stage.Amid R s (callTier call) r s') :
    s'.TierSpent pattern ∧ s'.cache.memory = s.cache.memory := by
  refine ⟨fun d hd => ?_, callTier_memory hR hrun⟩
  rcases callTier_ends hR hrun with ⟨hnone, -, hcache, hclock⟩ | ⟨a, h, hsome, hkeep, -, hcache⟩
  · cases hs : s.cache.distributed with
    | none =>
      rw [startCall_of_none hs] at hcache
      rw [hcache, hs] at hd
      cases hd
    | some d₀ =>
      -- the breaker refused, so it stays as it was and refuses again at the same time
      simp only [startCall_of_some hs] at hnone hcache
      have hrefused : (d₀.breaker.permits s.clock).1 = false := by
        rw [← DistributedTier.start_isSome, hnone]
        rfl
      rw [DistributedTier.start_of_refused hrefused] at hcache
      rw [hcache] at hd
      obtain rfl := Option.some.inj hd
      exact .inr (.inl (hclock ▸ hrefused))
  · obtain ⟨d₀, -, hstart, hdist⟩ := startCall_admitted hsome
    obtain ⟨-, hcall, htimed, hback, htimeout⟩ := DistributedTier.start_admitted hstart
    obtain ⟨-, hend⟩ := endCall_of_some (a := a) (hkeep.2.trans hdist)
    rw [hcache, hend] at hd
    obtain rfl := Option.some.inj hd
    refine DistributedTier.complete_spent (hcall ▸ hc) ?_ _ _ _
    rw [htimed, hback, htimeout]

/-- A call that removes the pattern, made on a spent tier amid others that leave the tiers alone,
removes nothing: it answers an error or nothing removed, and leaves both tiers' contents as they
were. -/
theorem callTier_of_tierSpent (hR : ∀ s s', R s s' → s.KeepsTiers s') {call : BackendCall}
    (hc : call.Removes pattern) (hspent : s.TierSpent pattern) {r : Except CacheError BackendReply}
    (hrun : Host.stage.Amid R s (callTier call) r s') :
    RemovedNothing r ∧ s'.cache.memory = s.cache.memory ∧
      s'.cache.distributed.map (·.backend.store) = s.cache.distributed.map (·.backend.store) := by
  rcases callTier_ends hR hrun with ⟨-, hr, hcache, -⟩ | ⟨a, h, hsome, hkeep, hr, hcache⟩
  · exact ⟨.inl ⟨_, hr⟩, callTier_memory hR hrun, by rw [hcache, startCall_stores]⟩
  · obtain ⟨d₀, hs, hstart, hdist⟩ := startCall_admitted hsome
    obtain ⟨hadm, hcall, htimed, hback, -⟩ := DistributedTier.start_admitted hstart
    obtain ⟨hr', hend⟩ := endCall_of_some (a := a) (hkeep.2.trans hdist)
    -- the breaker admitted the call, so the tier was spent by its store, its delay or its fault
    have hspent' : (∀ e ∈ (d₀.start call s.clock).1.backend.store, globMatch pattern e.1 = false) ∨
        a.timedOut = true ∨ (d₀.start call s.clock).1.backend.failing = true := by
      rw [hback, htimed]
      rcases hspent d₀ hs with h | h | h | h
      · exact .inl h
      · rw [hadm] at h
        cases h
      · exact .inr (.inl h)
      · exact .inr (.inr h)
    obtain ⟨hstore, hnothing⟩ := DistributedTier.complete_of_spent (hcall ▸ hc) hspent' h.cache.metrics h.clock
    refine ⟨by rw [hr, hr']; exact hnothing, callTier_memory hR hrun, ?_⟩
    rw [hcache, hend, hs]
    simp [hstore, hback]

/-- A removal from the distributed tier is one call that removes the pattern; an answer that
reports nothing removed counts none. -/
theorem tierDeleteMatching_call {n : Except CacheError Nat}
    (hrun : Host.stage.Amid R s (tierDeleteMatching pattern) n s') :
    ∃ call r, call.Removes pattern ∧ Host.stage.Amid R s (callTier call) r s' ∧
      (RemovedNothing r → n.toOption.getD 0 = 0) := by
  unfold tierDeleteMatching at hrun
  split at hrun
  · obtain ⟨r, s₁, hcall, hdone⟩ := Amid.of_bind hrun
    obtain ⟨rfl, rfl⟩ := Amid.done_iff.1 hdone
    refine ⟨_, r, .inl rfl, hcall, ?_⟩
    rintro (⟨e, rfl⟩ | rfl | rfl) <;> rfl
  · next hplain =>
    obtain ⟨r, s₁, hcall, hdone⟩ := Amid.of_bind hrun
    obtain ⟨rfl, rfl⟩ := Amid.done_iff.1 hdone
    refine ⟨_, r, .inr ⟨rfl, by simpa using hplain⟩, hcall, ?_⟩
    rintro (⟨e, rfl⟩ | rfl | rfl) <;> rfl

/-- An invalidation run amid others that leave the tiers alone leaves the memory tier cleared of
the pattern and the distributed tier spent. -/
theorem invalidate_spends (hR : ∀ s s', R s s' → s.KeepsTiers s') {n : Nat}
    (hrun : Host.stage.Amid R s (invalidate pattern) n s') : s'.Cleared pattern ∧ s'.TierSpent pattern := by
  unfold invalidate at hrun
  obtain ⟨here, s₁, hmem, hrest₁⟩ := Amid.of_bind hrun
  obtain ⟨-, hs₁⟩ := Amid.modifyGet hmem
  have hcleared : s₁.Cleared pattern := by
    intro e he
    rw [hs₁] at he
    exact MemoryTier.removeMatching_clears _ _ _ _ e he
  obtain ⟨memOnly, s₂, hlook, hrest₂⟩ := Amid.of_bind hrest₁
  obtain ⟨hmemOnly, hs₂⟩ := Amid.read_done hlook
  extract_lets publish at hrest₂
  -- the closing publication moves neither the tiers nor the clock
  have hpub : ∀ there {s₃ : Host}, Host.stage.Amid R s₃ (publish there) n s' →
      s'.cache.memory = s₃.cache.memory ∧ s'.cache.distributed = s₃.cache.distributed ∧
        s'.clock = s₃.clock := by
    intro there s₃ h
    have hdone := Amid.modify_bind h
    obtain ⟨-, rfl⟩ := Amid.done_iff.1 hdone
    exact ⟨rfl, rfl, rfl⟩
  split at hrest₂
  · next honly =>
    obtain ⟨hm, hd, -⟩ := hpub 0 hrest₂
    refine ⟨fun e he => hcleared e (by rw [← hs₂, ← hm]; exact he), fun d hdist => ?_⟩
    rw [hd, hs₂] at hdist
    simp [hmemOnly, TieredCache.memoryOnly, hdist] at honly
  · obtain ⟨r, s₃, hdel, hrest₃⟩ := Amid.of_bind hrest₂
    obtain ⟨hm, hd, hclock⟩ := hpub _ hrest₃
    obtain ⟨call, r', hc, hcall, -⟩ := tierDeleteMatching_call hdel
    obtain ⟨hspent, hmem₃⟩ := tierSpent_of_callTier hR hc hcall
    refine ⟨fun e he => hcleared e (by rw [← hs₂, ← hmem₃, ← hm]; exact he), fun d hdist => ?_⟩
    rw [hclock]
    exact hspent d (hd ▸ hdist)

/-- An invalidation run, amid others that leave the tiers alone, from a state whose memory tier is
cleared of the pattern and whose distributed tier is spent counts nothing and removes nothing. -/
theorem invalidate_of_spent (hR : ∀ s s', R s s' → s.KeepsTiers s') (hcleared : s.Cleared pattern)
    (hspent : s.TierSpent pattern) {n : Nat} (hrun : Host.stage.Amid R s (invalidate pattern) n s') :
    n = 0 ∧ s'.cache.memory = s.cache.memory ∧
      s'.cache.distributed.map (·.backend.store) = s.cache.distributed.map (·.backend.store) := by
  unfold invalidate at hrun
  obtain ⟨here, s₁, hmem, hrest₁⟩ := Amid.of_bind hrun
  obtain ⟨hhere, hs₁⟩ := Amid.modifyGet hmem
  -- the memory tier holds nothing to remove, so the first step changes nothing
  have hnone := MemoryTier.removeMatching_of_cleared s.cache.metrics s.clock hcleared
  simp only [TieredCache.onMemory, hnone] at hhere
  have hcache₁ : s₁.cache = s.cache ∧ s₁.clock = s.clock := by
    rw [hs₁]
    simp [Host.stage, TieredCache.onMemory, hnone]
  obtain ⟨memOnly, s₂, hlook, hrest₂⟩ := Amid.of_bind hrest₁
  obtain ⟨-, hs₂⟩ := Amid.read_done hlook
  extract_lets publish at hrest₂
  have hpub : ∀ there {s₃ : Host}, Host.stage.Amid R s₃ (publish there) n s' →
      n = here + there ∧ s'.cache.memory = s₃.cache.memory ∧ s'.cache.distributed = s₃.cache.distributed := by
    intro there s₃ h
    have hdone := Amid.modify_bind h
    obtain ⟨hn, rfl⟩ := Amid.done_iff.1 hdone
    exact ⟨hn, rfl, rfl⟩
  split at hrest₂
  · obtain ⟨hn, hm, hd⟩ := hpub 0 hrest₂
    exact ⟨by rw [hn, hhere], by rw [hm, hs₂, hcache₁.1], by rw [hd, hs₂, hcache₁.1]⟩
  · obtain ⟨r, s₃, hdel, hrest₃⟩ := Amid.of_bind hrest₂
    obtain ⟨hn, hm, hd⟩ := hpub _ hrest₃
    obtain ⟨call, r', hc, hcall, hzero⟩ := tierDeleteMatching_call hdel
    -- the tier call starts where the invalidation started, so the tier is still spent
    have hspent₂ : s₂.TierSpent pattern := by
      intro d hdist
      rw [hs₂, hcache₁.2]
      exact hspent d (by rw [← hcache₁.1, ← hs₂]; exact hdist)
    obtain ⟨hnothing, hmem₃, hstore⟩ := callTier_of_tierSpent hR hc hspent₂ hcall
    exact ⟨by rw [hn, hhere, hzero hnothing], by rw [hm, hmem₃, hs₂, hcache₁.1],
      by rw [hd, hstore, hs₂, hcache₁.1]⟩

/-- Invalidating a pattern twice with nothing in between, while the other fibers leave both tiers
alone: the second invalidation counts nothing and leaves the memory tier, and the distributed
tier's store, as the first left them. -/
theorem repeated_invalidation_removes_nothing (hR : ∀ s s', R s s' → s.KeepsTiers s')
    {s₁ s₂ : Host} {n₁ n₂ : Nat} (hfirst : Host.stage.Amid R s (invalidate pattern) n₁ s₁)
    (hsecond : Host.stage.Amid R s₁ (invalidate pattern) n₂ s₂) :
    n₂ = 0 ∧ s₂.cache.memory = s₁.cache.memory ∧
      s₂.cache.distributed.map (·.backend.store) = s₁.cache.distributed.map (·.backend.store) := by
  obtain ⟨hcleared, hspent⟩ := invalidate_spends hR hfirst
  exact invalidate_of_spent hR hcleared hspent hsecond

/-- A host whose two tiers both hold `k`, its backend answering after 10 ms. -/
def bothTiersHost : Host :=
  { cache := { (TieredCache.create .lz4 {} true).remember "k" "v".toUTF8 1000 .memory 0 with
      distributed := some { DistributedTier.create 5 30 100 with
        backend := { store := [("k", ⟨"v".toUTF8, 60000⟩)], latency := some 10 } } } }

/-- Invalidating `k` twice on that host, with the other fibers idle and the clock moving only by
the calls' own waits. -/
theorem invalidating_twice_from_both_tiers :
    ∃ n₁ n₂ s₁ s₂, Host.stage.Amid Host.KeepsTiers bothTiersHost (invalidate "k") n₁ s₁ ∧
      Host.stage.Amid Host.KeepsTiers s₁ (invalidate "k") n₂ s₂ ∧
      n₂ = 0 ∧ s₂.cache.memory = s₁.cache.memory ∧
      s₂.cache.distributed.map (·.backend.store) = s₁.cache.distributed.map (·.backend.store) := by
  have hplain : Glob.isPattern "k" = false := Glob.isPattern_eq_false_iff.2 (by simp)
  -- the two calls run alone; the pattern's kind is settled before the run is computed
  have hrun : ∃ r, Host.stage.alone 50 bothTiersHost (do
      let a ← invalidate "k"
      let b ← invalidate "k"
      pure (a, b)) = some r := by
    simp only [invalidate, tierDeleteMatching, hplain, Bool.false_eq_true, if_false]
    exact ⟨_, rfl⟩
  obtain ⟨⟨⟨n₁, n₂⟩, s₂⟩, hrun⟩ := hrun
  have hamid := Amid.of_alone (R := Host.KeepsTiers) Host.KeepsTiers.refl (fun _ _ _ => ⟨rfl, rfl⟩)
    (fun _ _ => rfl) hrun
  obtain ⟨a, s₁, hfirst, hrest⟩ := Amid.of_bind hamid
  obtain ⟨b, s₂', hsecond, -⟩ := Amid.of_bind hrest
  exact ⟨a, b, s₁, s₂', hfirst, hsecond,
    repeated_invalidation_removes_nothing (fun _ _ h => h) hfirst hsecond⟩

end Act

end TierCache
