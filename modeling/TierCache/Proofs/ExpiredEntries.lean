import TierCache.Proofs.WriteVisibility
import TierCache.Proofs.MirroredTier
import TierCache.Proofs.IssuedValues

/-!
# Expired entries: absent to reads, present to removals

The backend's removals count an expired entry that its reads treat as absent
(`expired_entry_counted_by_removals`), and an invalidation's answer counts it too
(`invalidate_answer`).
-/

namespace TierCache

namespace Backend

/-- What the backend's removal of a pattern answers: how many stored keys a glob matches, expired
ones included, or whether a key with no glob characters is stored. -/
def removals (b : Backend) (pattern : String) : Nat :=
  if Glob.isPattern pattern then (b.store.filter fun e => globMatch pattern e.1).length
  else if (b.store.lookup pattern).isSome then 1 else 0

variable {b : Backend} {k : String} {sf : StoredFrame} {now : Nat}

theorem lookup_without_self (b : Backend) (k : String) : (b.without k).store.lookup k = none := by
  simp [lookup_without]

theorem get_expired (hk : b.store.lookup k = some sf) (hexp : sf.expires ≤ now) :
    b.act (.get k) now = (b.without k, .frame none) := by
  have hdead : ¬ sf.expires > now := by omega
  simp [act, hk, hdead]

theorem get_absent (hk : b.store.lookup k = none) : b.act (.get k) now = (b, .frame none) := by
  simp [act, hk]

-- Splitting the matches of a glob by whether their key is `k`, a key the glob matches.
theorem length_filter_match (l : List (String × StoredFrame)) {pattern : String}
    (hmatch : globMatch pattern k = true) :
    (l.filter fun e => globMatch pattern e.1).length =
      ((l.filter fun e => e.1 != k).filter fun e => globMatch pattern e.1).length +
        (l.filter fun e => e.1 == k).length := by
  induction l with
  | nil => rfl
  | cons e l ih =>
    by_cases hk : e.1 = k
    · simp [hk, hmatch, ih]
      omega
    · by_cases hm : globMatch pattern e.1 = true
      · simp [hk, hm, ih]
        omega
      · simp [hk, hm, ih]

/-- An entry whose time to live has run out is absent to the backend's reads and present to its
removals. A read of its key answers nothing, as on the store without the entry, and `contains`
says no. A delete of its key answers that it existed, where on the store without the entry it
answers that it did not; a removal by a glob matching its key counts it on top of what it counts
on the store without it. Each removal leaves the store as it leaves the store without the
entry. -/
theorem expired_entry_counted_by_removals (hk : b.store.lookup k = some sf)
    (hexp : sf.expires ≤ now) :
    b.act (.get k) now = (b.without k).act (.get k) now ∧ b.contains k now = false ∧
      ((b.act (.delete k) now).2 = .removed true ∧
        ((b.without k).act (.delete k) now).2 = .removed false ∧
        ∀ k', (b.act (.delete k) now).1.store.lookup k' =
          ((b.without k).act (.delete k) now).1.store.lookup k') ∧
      ∀ pattern, globMatch pattern k = true → ∃ n m, 0 < m ∧
        (b.act (.deleteMatching pattern) now).2 = .count (n + m) ∧
        ((b.without k).act (.deleteMatching pattern) now).2 = .count n ∧
        ∀ k', (b.act (.deleteMatching pattern) now).1.store.lookup k' =
          ((b.without k).act (.deleteMatching pattern) now).1.store.lookup k' := by
  have hgone := lookup_without_self b k
  refine ⟨by rw [get_expired hk hexp, get_absent hgone], ?_, ?_, fun pattern hmatch => ?_⟩
  · simp [contains, hk]
    omega
  · -- the delete answers by the stored key alone, and drops it either way
    refine ⟨by simp [act, hk], by simp [act, hgone], fun k' => ?_⟩
    rw [lookup_delete, lookup_delete, lookup_without]
    by_cases hk' : k' = k <;> simp [hk']
  · -- the entries of `k` are counted on top of the other matches
    have hpos : 0 < (b.store.filter fun e => e.1 == k).length := by
      obtain ⟨l₁, l₂, hl, -⟩ := List.lookup_eq_some_iff.1 hk
      simp [hl, List.filter_append]
    refine ⟨_, _, hpos, ?_, rfl, fun k' => ?_⟩
    · simp only [act]
      rw [length_filter_match b.store hmatch]
      rfl
    · rw [lookup_deleteMatching, lookup_deleteMatching, lookup_without]
      by_cases hk' : k' = k
      · simp [hk', hmatch]
      · simp [hk']

/-- A store holding, at 20 ms, a frame for `k` that expired at 10 ms. -/
def expiredStore : Backend := { store := [("k", ⟨"v".toUTF8, 10⟩)] }

theorem expired_store_counted_by_delete :
    (expiredStore.store.lookup "k" = some ⟨"v".toUTF8, 10⟩ ∧ 10 ≤ 20) ∧
      expiredStore.act (.get "k") 20 = (expiredStore.without "k").act (.get "k") 20 ∧
      expiredStore.contains "k" 20 = false ∧
      ((expiredStore.act (.delete "k") 20).2 = .removed true ∧
        ((expiredStore.without "k").act (.delete "k") 20).2 = .removed false ∧
        ∀ k', (expiredStore.act (.delete "k") 20).1.store.lookup k' =
          ((expiredStore.without "k").act (.delete "k") 20).1.store.lookup k') ∧
      ∀ pattern, globMatch pattern "k" = true → ∃ n m, 0 < m ∧
        (expiredStore.act (.deleteMatching pattern) 20).2 = .count (n + m) ∧
        ((expiredStore.without "k").act (.deleteMatching pattern) 20).2 = .count n ∧
        ∀ k', (expiredStore.act (.deleteMatching pattern) 20).1.store.lookup k' =
          ((expiredStore.without "k").act (.deleteMatching pattern) 20).1.store.lookup k' :=
  ⟨⟨rfl, by decide⟩, expired_entry_counted_by_removals rfl (by decide)⟩

end Backend

/-- The expired frame reads as absent, and a delete of its key answers that the key existed. -/
theorem expired_frame_deleted_as_present :
    Backend.expiredStore.contains "k" 20 = false ∧
      (Backend.expiredStore.act (.get "k") 20).2 = .frame none ∧
      (Backend.expiredStore.act (.delete "k") 20).2 = .removed true :=
  ⟨rfl, rfl, rfl⟩

/-! ## The invalidation's count -/

namespace MemoryTier

/-- The live entries of the memory tier a glob matches at `now`. -/
def liveMatches (t : MemoryTier) (pattern : String) (now : Nat) : Nat :=
  (t.items.filter fun e => globMatch pattern e.1 && !e.2.expiredAt now).length

theorem removeMatching_count (t : MemoryTier) (m : Metrics) (pattern : String) (now : Nat) :
    (t.removeMatching m pattern now).1 = t.liveMatches pattern now := by
  have hsplit : (t.items.filter fun e => globMatch pattern e.1 && !e.2.expiredAt now) =
      (t.items.filter fun e => globMatch pattern e.1).filter fun e => !e.2.expiredAt now := by
    rw [List.filter_filter]
    congr 1
    funext e
    rw [Bool.and_comm]
  unfold removeMatching liveMatches
  extract_lets doomed
  rw [hsplit]
  split
  · next hempty =>
    have hnone : (t.items.filter fun e => globMatch pattern e.1) = [] := List.isEmpty_iff.1 hempty
    rw [hnone]
    rfl
  · rfl

end MemoryTier

namespace DistributedTier

theorem complete_ok {d : DistributedTier} {m : Metrics} {a : Admitted} {now : Nat}
    {reply : BackendReply} (h : (d.complete m a now).2.2 = .ok reply) :
    reply = (d.backend.act a.call now).2 := by
  unfold complete at h
  cases ho : d.outcome a now with
  | error e =>
    rw [ho] at h
    cases h
  | ok r =>
    obtain rfl := eq_act_of_outcome ho
    rw [ho] at h
    exact (Except.ok.inj h).symm

end DistributedTier

namespace Act

open Stage

variable {R : Host → Host → Prop} {s s' : Host}

theorem endCall_ok {a : DistributedTier.Admitted} {h : Host} {reply : BackendReply}
    (hr : (endCall a h).1 = .ok reply) :
    ∃ d, h.cache.distributed = some d ∧ reply = (d.backend.act a.call h.clock).2 := by
  unfold endCall at hr
  split at hr
  · cases hr
  · next d hd => exact ⟨d, hd, DistributedTier.complete_ok hr⟩

/-- A call to the distributed tier that answers went through: its answer is what the backend
answers to it, in the state the tier is in when the call ends. -/
theorem callTier_ok {call : BackendCall} {reply : BackendReply}
    (hrun : Host.stage.Amid R s (callTier call) (.ok reply) s') :
    ∃ (h : Host) (d : DistributedTier), h.cache.distributed = some d ∧
      reply = (d.backend.act call h.clock).2 := by
  unfold callTier at hrun
  obtain ⟨admitted, s₁, hstart, hrest⟩ := Amid.of_bind hrun
  obtain ⟨hadmitted, -⟩ := Amid.modifyGet hstart
  cases admitted with
  | none => cases (Amid.done_iff.1 hrest).1
  | some a =>
    have hcall : a.call = call := startCall_call hadmitted.symm
    -- the call ends wherever the others left the state while the caller waited
    have hfinish : ∀ {s₂ : Host}, Host.stage.Amid R s₂ (Fiber.modifyGet (endCall a)) (.ok reply) s' →
        ∃ (h : Host) (d : DistributedTier), h.cache.distributed = some d ∧
          reply = (d.backend.act call h.clock).2 := by
      intro s₂ hend
      obtain ⟨hr, -⟩ := Amid.modifyGet hend
      obtain ⟨d, hd, hreply⟩ := endCall_ok hr.symm
      exact ⟨s₂, d, hd, hcall ▸ hreply⟩
    dsimp only at hrest
    split at hrest
    · obtain ⟨u, s₂, -, hend⟩ := Amid.of_bind hrest
      exact hfinish hend
    · exact hfinish hrest

/-- A removal from the distributed tier that answers a count answers the backend's removals of the
pattern, expired entries included. -/
theorem tierDeleteMatching_ok {pattern : String} {n : Nat}
    (hrun : Host.stage.Amid R s (tierDeleteMatching pattern) (.ok n) s') :
    ∃ (h : Host) (d : DistributedTier), h.cache.distributed = some d ∧
      n = d.backend.removals pattern := by
  -- either way one call is made, and the count is read off its answer
  have hread : ∀ {call : BackendCall} {read : BackendReply → Nat},
      Host.stage.Amid R s (callTier call >>= fun r => pure (r.map read)) (.ok n) s' →
        ∃ (h : Host) (d : DistributedTier), h.cache.distributed = some d ∧
          n = read (d.backend.act call h.clock).2 := by
    intro call read h
    obtain ⟨r, s₁, hcall, hdone⟩ := Amid.of_bind h
    obtain ⟨hr, -⟩ := Amid.done_iff.1 hdone
    cases r with
    | error e => cases hr
    | ok reply =>
      obtain ⟨h, d, hd, rfl⟩ := callTier_ok hcall
      exact ⟨h, d, hd, Except.ok.inj hr⟩
  unfold tierDeleteMatching at hrun
  split at hrun
  · next hglob =>
    obtain ⟨h, d, hd, hn⟩ := hread hrun
    exact ⟨h, d, hd, by simpa [Backend.removals, hglob, Backend.act] using hn⟩
  · next hplain =>
    obtain ⟨h, d, hd, hn⟩ := hread hrun
    refine ⟨h, d, hd, ?_⟩
    simp only [Backend.removals, hplain, Backend.act, Bool.false_eq_true, if_false] at hn ⊢
    cases hfound : (d.backend.store.lookup pattern).isSome <;> simp_all

/-- An invalidation answers the live memory entries the glob matched when it began, plus nothing
when there is no distributed tier or its removal failed, and otherwise the backend's removals of
the pattern when the removal went through: stored matches, expired or not. -/
theorem invalidate_answer {pattern : String} {n : Nat}
    (hrun : Host.stage.Amid R s (invalidate pattern) n s') :
    ∃ there, n = s.cache.memory.liveMatches pattern s.clock + there ∧
      (there = 0 ∨ ∃ (h : Host) (d : DistributedTier), h.cache.distributed = some d ∧
        there = d.backend.removals pattern) := by
  unfold invalidate at hrun
  obtain ⟨here, s₁, hmem, hrest⟩ := Amid.of_bind hrun
  obtain ⟨hhere, -⟩ := Amid.modifyGet hmem
  have hlive : here = s.cache.memory.liveMatches pattern s.clock := by
    rw [hhere, ← MemoryTier.removeMatching_count _ s.cache.metrics]
    rfl
  obtain ⟨memOnly, s₂, -, hrest⟩ := Amid.of_bind hrest
  extract_lets publish at hrest
  -- after the removals only the event is published, and the answer is their sum
  have hsum : ∀ there {s₃ : Host}, Host.stage.Amid R s₃ (publish there) n s' → n = here + there := by
    intro there s₃ h
    have hdone := Amid.modify_bind h
    exact (Amid.done_iff.1 hdone).1
  split at hrest
  · exact ⟨0, (hsum 0 hrest).trans (by rw [hlive]), .inl rfl⟩
  · obtain ⟨r, s₃, hdel, hrest⟩ := Amid.of_bind hrest
    refine ⟨r.toOption.getD 0, (hsum _ hrest).trans (by rw [hlive]), ?_⟩
    cases r with
    | error e => exact .inl rfl
    | ok m => exact .inr (tierDeleteMatching_ok hdel)

end Act

end TierCache
