import TierCache.Proofs.DependencyOrder

/-!
# The books of the write-behind writes

The writes' history is kept beside the host (`Host.writeLog`), and the counts agree with it
(`WriteBooks`).

Main statement: `write_behind_books_balance`.
-/

namespace TierCache

/-! ## The history of the writes -/

/-- What the history of the write-behind writes records, each event with its write's ticket. -/
inductive WriteEvent where
  /-- The write took its permit; its call to the distributed tier begins. -/
  | entered (ticket : Nat)
  /-- The call ended, `ok` when it worked, and the write gave its permit back. -/
  | left (ticket : Nat) (ok : Bool)
  /-- The write counted the failure of its call. -/
  | failed (ticket : Nat)
  /-- The write is no longer pending. -/
  | finished (ticket : Nat)
  deriving DecidableEq

namespace WriteEvent

/-- The ticket of the write an event is about. -/
def ticket : WriteEvent → Nat
  | entered t | left t _ | failed t | finished t => t

/-- The ticket of a write that took its permit. -/
def entered? : WriteEvent → Option Nat
  | entered t => some t
  | _ => none

/-- Whether the write of a ticket is inside its call: it took its permit and has not given it
back. -/
def Inside (H : List WriteEvent) (t : Nat) : Prop :=
  entered t ∈ H ∧ left t true ∉ H ∧ left t false ∉ H

instance (H : List WriteEvent) (t : Nat) : Decidable (Inside H t) :=
  inferInstanceAs (Decidable (_ ∧ _ ∧ _))

/-- The events of the write of a ticket, in the order they happened. -/
def trail (H : List WriteEvent) (t : Nat) : List WriteEvent := H.filter (·.ticket = t)

theorem mem_trail {H : List WriteEvent} {e : WriteEvent} {t : Nat} (he : e.ticket = t) :
    e ∈ trail H t ↔ e ∈ H := by
  simp [trail, he]

-- An event of another write leaves a write's trail alone.
theorem trail_note_of_ne (H : List WriteEvent) {e : WriteEvent} {t : Nat} (he : e.ticket ≠ t) :
    trail (H ++ [e]) t = trail H t := by
  simp [trail, List.filter_append, he]

theorem trail_note (H : List WriteEvent) (e : WriteEvent) :
    trail (H ++ [e]) e.ticket = trail H e.ticket ++ [e] := by
  simp [trail, List.filter_append]

theorem inside_note_of_ne (H : List WriteEvent) {e : WriteEvent} {t : Nat} (he : e.ticket ≠ t) :
    Inside (H ++ [e]) t ↔ Inside H t := by
  have hne : ∀ x : WriteEvent, x.ticket = t → x ≠ e := fun x hx h => he (h ▸ hx)
  simp [Inside, hne (.entered t) rfl, hne (.left t true) rfl, hne (.left t false) rfl]

-- Only the taking of a permit moves the order of the permits.
theorem entered_note {H : List WriteEvent} {e : WriteEvent} (he : e.entered? = none) :
    (H ++ [e]).filterMap entered? = H.filterMap entered? := by
  simp [List.filterMap_append, he]

end WriteEvent

/-- How far a write-behind job has gone. -/
inductive WritePhase where
  /-- Waiting for its turn and a permit. -/
  | queued
  /-- Holding a permit, its call under way. -/
  | inside
  /-- The permit given back after a call that worked when `ok`. -/
  | back (ok : Bool)
  /-- The failure of its call counted. -/
  | counted
  /-- No longer pending. -/
  | done (ok : Bool)

/-- The events a write of ticket `t` has noted by a phase, in order. -/
def WritePhase.trail (t : Nat) : WritePhase → List WriteEvent
  | queued => []
  | inside => [.entered t]
  | back ok => [.entered t, .left t ok]
  | counted => [.entered t, .left t false, .failed t]
  | done ok => [.entered t, .left t ok] ++ (if ok then [] else [.failed t]) ++ [.finished t]

namespace WritePhase

-- Only a write that is done has noted its end.
theorem done_of_finished {t : Nat} {ph : WritePhase} (h : .finished t ∈ ph.trail t) :
    ∃ ok, ph = .done ok := by
  cases ph with
  | done ok => exact ⟨ok, rfl⟩
  | back ok => cases ok <;> simp [trail] at h
  | _ => simp [trail] at h

-- A write counts a failure only after its call failed.
theorem left_false_of_failed {t : Nat} {ph : WritePhase} (h : .failed t ∈ ph.trail t) :
    .left t false ∈ ph.trail t := by
  cases ph with
  | done ok => cases ok <;> simp_all [trail]
  | back ok => cases ok <;> simp [trail] at h
  | _ => simp_all [trail]

end WritePhase

/-- What a fiber holds of the write-behind books. -/
inductive WriteShare where
  /-- A caller, with the ticket of a write it has counted and not yet handed to its job. -/
  | caller (owed : Option Nat)
  /-- The job of the write of a ticket, and how far it has gone. -/
  | job (ticket : Nat) (phase : WritePhase)

/-- The ticket a share holds. -/
def WriteShare.ticket? : WriteShare → Option Nat
  | caller owed => owed
  | job t _ => some t

/-! ## Counting tickets -/

theorem countP_change {T : List Nat} (hT : T.Nodup) {t : Nat} (ht : t ∈ T) {p q : Nat → Bool}
    (hpq : ∀ t', t' ≠ t → q t' = p t') :
    T.countP q + (if p t then 1 else 0) = T.countP p + (if q t then 1 else 0) := by
  induction T with
  | nil => cases ht
  | cons x xs ih =>
    obtain ⟨hx, hxs⟩ := List.nodup_cons.1 hT
    rw [List.countP_cons, List.countP_cons]
    rcases List.mem_cons.1 ht with rfl | ht
    · -- the ticket that changes is the first; the others count alike
      have hrest : xs.countP q = xs.countP p :=
        List.countP_congr fun t' ht' => by rw [hpq t' fun h => hx (h ▸ ht')]
      omega
    · have hq : q x = p x := hpq x fun h => hx (h ▸ ht)
      have := ih hxs ht
      rw [hq]
      omega

-- A count that no ticket changes stays.
theorem countP_same {T : List Nat} {p q : Nat → Bool} (hpq : ∀ t, q t = p t) :
    T.countP q = T.countP p :=
  List.countP_congr fun t _ => by rw [hpq t]

/-- The tickets handed out from `t₀` on, before the next one `n`. -/
def ticketsFrom (t₀ n : Nat) : List Nat := List.range' t₀ (n - t₀)

theorem ticketsFrom_nodup (t₀ n : Nat) : (ticketsFrom t₀ n).Nodup :=
  List.nodup_range' _

theorem mem_ticketsFrom {t₀ n t : Nat} : t ∈ ticketsFrom t₀ n ↔ t₀ ≤ t ∧ t < n := by
  simp only [ticketsFrom, List.mem_range'_1]
  omega

theorem ticketsFrom_succ {t₀ n : Nat} (h : t₀ ≤ n) : ticketsFrom t₀ (n + 1) = ticketsFrom t₀ n ++ [n] := by
  rw [ticketsFrom, ticketsFrom, show n + 1 - t₀ = n - t₀ + 1 by omega, List.range'_concat]
  congr 2
  omega

/-! ## The books against the history -/

/-- The write-behind books of a cache agree with a history of its writes since the cache `c₀`:
there is a distributed tier exactly when there was, and in memory-only mode no ticket was handed
out; the scheduled count grew by the tickets handed out, the pending count is the number of them
whose write has not finished, the failed count grew by the failures noted, the free permits and
the writes inside their call make up the permits of `c₀`, and the permits went in the order of
the tickets. -/
structure WriteBooks (c₀ c : TieredCache) (H : List WriteEvent) : Prop where
  memoryOnly : c.memoryOnly = c₀.memoryOnly
  unscheduled : c₀.memoryOnly = true → c.writeBehind.nextTicket = c₀.writeBehind.nextTicket
  since : c₀.writeBehind.nextTicket ≤ c.writeBehind.nextTicket
  scheduled : c.metrics.writeBehindScheduled =
    c₀.metrics.writeBehindScheduled + (c.writeBehind.nextTicket - c₀.writeBehind.nextTicket)
  pending : c.writeBehind.pending =
    (ticketsFrom c₀.writeBehind.nextTicket c.writeBehind.nextTicket).countP
      fun t => .finished t ∉ H
  failed : c.metrics.writeBehindFailed = c₀.metrics.writeBehindFailed +
    (ticketsFrom c₀.writeBehind.nextTicket c.writeBehind.nextTicket).countP
      fun t => .failed t ∈ H
  permits : c.writeBehind.permits +
    (ticketsFrom c₀.writeBehind.nextTicket c.writeBehind.nextTicket).countP
      (WriteEvent.Inside H) = c₀.writeBehind.permits
  served : c₀.writeBehind.nextTicket ≤ c.writeBehind.serving
  order : H.filterMap WriteEvent.entered? =
    List.range' c₀.writeBehind.nextTicket (c.writeBehind.serving - c₀.writeBehind.nextTicket)

/-- The history of each write is its own: a job's share says how far its write has gone, and the
history holds exactly the events of that phase for its ticket; every event is of a job's write,
no two shares hold one ticket, and every ticket held is one handed out from `t₀` and before `n`. -/
structure WriteTrails (t₀ n : Nat) (H : List WriteEvent) (S : Multiset WriteShare) : Prop where
  trail : ∀ t ph, .job t ph ∈ S → WriteEvent.trail H t = ph.trail t
  heard : ∀ e ∈ H, ∃ ph, .job e.ticket ph ∈ S
  distinct : (S.filterMap WriteShare.ticket?).Nodup
  issued : ∀ o ∈ S, ∀ t ∈ o.ticket?, t₀ ≤ t ∧ t < n

/-! ## Changes that leave the books alone -/

/-- The counts of write-behind writes scheduled and failed. -/
def Metrics.writes (m : Metrics) : Nat × Nat := (m.writeBehindScheduled, m.writeBehindFailed)

namespace MemoryTier

variable (t : MemoryTier) (m : Metrics)

@[simp] theorem writes_publish : (t.publish m).writes = m.writes := rfl

theorem writes_get (key : String) (now : Nat) : (t.get m key now).2.2.writes = m.writes := by
  unfold get
  split
  · rfl
  · split <;> rfl

theorem writes_evictOldest : (t.evictOldest m).2.2.writes = m.writes := by
  simp only [evictOldest]
  split <;> rfl

theorem writes_set (key : String) (value : ByteArray) (ttlMs : Nat) (origin : Origin) (now : Nat) :
    (t.set m key value ttlMs origin now).2.2.writes = m.writes := by
  simp only [set, writes_publish]
  split
  · exact writes_evictOldest t m
  · rfl

theorem writes_delete (key : String) : (t.delete m key).2.2.writes = m.writes := by
  unfold delete
  split <;> rfl

theorem writes_removeMatching (pattern : String) (now : Nat) :
    (t.removeMatching m pattern now).2.2.writes = m.writes := by
  simp only [removeMatching]
  split <;> rfl

theorem writes_sweep (now : Nat) : (t.sweep m now).2.2.writes = m.writes := by
  simp only [sweep]
  split <;> rfl

end MemoryTier

-- A call to the distributed tier moves only the error count among the counters.
theorem DistributedTier.writes_complete (d : DistributedTier) (m : Metrics)
    (a : DistributedTier.Admitted) (now : Nat) : (d.complete m a now).2.1.writes = m.writes := by
  unfold DistributedTier.complete DistributedTier.settle
  split <;> rfl

namespace TieredCache

/-- A change that leaves the write-behind books alone: the writes' bookkeeping, their counts, and
whether there is a distributed tier. -/
def Aside (c c' : TieredCache) : Prop :=
  c'.writeBehind = c.writeBehind ∧ c'.metrics.writes = c.metrics.writes ∧ c'.memoryOnly = c.memoryOnly

variable {c c' c'' : TieredCache}

theorem Aside.trans (h₁ : Aside c c') (h₂ : Aside c' c'') : Aside c c'' :=
  ⟨h₂.1.trans h₁.1, h₂.2.1.trans h₁.2.1, h₂.2.2.trans h₁.2.2⟩

theorem aside_count {f : Metrics → Metrics} (hf : (f c.metrics).writes = c.metrics.writes) :
    Aside c (c.count f) :=
  ⟨rfl, hf, rfl⟩

theorem aside_publish (c : TieredCache) (e : CacheEvent) : Aside c (c.publish e) := ⟨rfl, rfl, rfl⟩

theorem aside_offerTrigger (c : TieredCache) (key : String) : Aside c (c.offerTrigger key) := by
  unfold offerTrigger
  split
  · exact ⟨rfl, rfl, rfl⟩
  · split
    · exact ⟨rfl, rfl, rfl⟩
    · exact ⟨rfl, rfl, rfl⟩

theorem aside_onMemory {α : Type} (c : TieredCache) (f : MemoryTier → Metrics → α × MemoryTier × Metrics)
    (hf : (f c.memory c.metrics).2.2.writes = c.metrics.writes) : Aside c (c.onMemory f).2 :=
  ⟨rfl, hf, rfl⟩

theorem aside_remember (c : TieredCache) (key : String) (v : ByteArray) (ttl : Nat) (origin : Origin)
    (now : Nat) : Aside c (c.remember key v ttl origin now) :=
  aside_onMemory c _ (MemoryTier.writes_set _ _ _ _ _ _ _)

end TieredCache

/-- A change of the host that asks for no job and leaves the write-behind books alone. -/
def Host.Aside (h h' : Host) : Prop := h'.requested = h.requested ∧ TieredCache.Aside h.cache h'.cache

namespace Act

variable {α : Type}

/-- From any state, every change the program makes leaves the write-behind books alone. -/
def Aside (f : Act α) : Prop := Stays Host.Aside f

theorem aside_changeCache {f : Nat → TieredCache → TieredCache}
    (hf : ∀ now c, TieredCache.Aside c (f now c)) : Aside (changeCache f) :=
  stays_modify fun _ => ⟨rfl, hf _ _⟩

theorem aside_onCache {f : Nat → TieredCache → α × TieredCache}
    (hf : ∀ now c, TieredCache.Aside c (f now c).2) : Aside (onCache f) :=
  stays_modifyGet fun _ => ⟨rfl, hf _ _⟩

theorem aside_count (f : Metrics → Metrics) (hf : ∀ m, (f m).writes = m.writes) :
    Aside (changeCache fun _ c => c.count f) :=
  aside_changeCache fun _ _ => TieredCache.aside_count (hf _)

theorem aside_callTier (call : BackendCall) : Aside (callTier call) := by
  refine stays_callTier (fun h => ?_) (fun a h => ?_)
  · -- the breaker's verdict moves the breaker and the backend's count only
    unfold startCall
    split
    · exact ⟨rfl, rfl, rfl, rfl⟩
    · rename_i hd
      exact ⟨rfl, rfl, rfl, by simp [TieredCache.memoryOnly, hd]⟩
  · unfold endCall
    split
    · exact ⟨rfl, rfl, rfl, rfl⟩
    · rename_i hd
      exact ⟨rfl, rfl, DistributedTier.writes_complete _ _ _ _, by simp [TieredCache.memoryOnly, hd]⟩

theorem aside_tierGet (key : String) : Aside (tierGet key) :=
  (aside_callTier _).bind fun _ => stays_pure _

theorem aside_tierSet (key : String) (frame : ByteArray) (ttlMs : Nat) :
    Aside (tierSet key frame ttlMs) :=
  (aside_callTier _).bind fun _ => stays_pure _

theorem aside_tierDelete (key : String) : Aside (tierDelete key) :=
  (aside_callTier _).bind fun _ => stays_pure _

theorem aside_tierDeleteMatching (pattern : String) : Aside (tierDeleteMatching pattern) := by
  unfold tierDeleteMatching
  split <;> exact (aside_callTier _).bind fun _ => stays_pure _

theorem aside_lookup (key : String) : Aside (lookup key) := by
  refine (aside_onCache fun now c =>
    TieredCache.aside_onMemory c _ (MemoryTier.writes_get _ _ _ _)).bind fun found => ?_
  split
  · exact (aside_count _ fun _ => by rfl).bind fun _ => stays_pure _
  · refine stays_memoryOnly.bind fun memoryOnly => ?_
    split
    · exact stays_pure _
    · refine (aside_tierGet key).bind fun r => ?_
      split
      · refine (stays_look _).bind fun decoded => ?_
        split
        · exact (aside_changeCache fun _ c => (TieredCache.aside_remember _ _ _ _ _ _).trans
            (TieredCache.aside_count rfl)).bind fun _ => stays_pure _
        · exact (aside_count _ fun _ => by rfl).bind fun _ => stays_pure _
      · exact stays_pure _

theorem aside_getRaw (key : String) : Aside (getRaw key) := by
  refine (aside_lookup key).bind fun found => ?_
  dsimp only
  split
  · exact (aside_count _ fun _ => by rfl).bind fun _ => (aside_count _ fun _ => by rfl).bind fun _ => stays_pure _
  · exact (aside_count _ fun _ => by rfl).bind fun _ => stays_pure _

theorem aside_readAs (sh : Shape) (found : Option ByteArray) : Aside (readAs sh found) := by
  unfold readAs
  split
  · exact stays_pure _
  · split
    · exact stays_pure _
    · exact (aside_count _ fun _ => by rfl).bind fun _ => stays_pure _

theorem aside_peekRaw (key : String) : Aside (peekRaw key) := by
  refine (stays_look _).bind fun found => ?_
  split
  · exact stays_pure _
  · refine stays_memoryOnly.bind fun memoryOnly => ?_
    split
    · exact stays_pure _
    · refine (aside_tierGet key).bind fun r => ?_
      split
      · exact stays_look _
      · exact stays_pure _

theorem aside_contains (key : String) : Aside (contains key) := by
  refine (stays_look _).bind fun here => ?_
  split
  · exact stays_pure _
  · refine stays_memoryOnly.bind fun memoryOnly => ?_
    split
    · exact stays_pure _
    · exact (aside_tierGet key).bind fun r => by split <;> exact stays_pure _

theorem aside_writeThrough (key : String) (v : ByteArray) (ttlMs : Nat) :
    Aside (writeThrough key v ttlMs) := by
  refine stays_memoryOnly.bind fun memoryOnly => ?_
  split
  · exact stays_pure _
  · exact (stays_look _).bind fun _ => (aside_tierSet _ _ _).bind fun _ => stays_pure _

theorem aside_delete (key : String) : Aside (delete key) := by
  unfold delete
  refine (aside_changeCache fun _ c =>
    TieredCache.aside_onMemory c _ (MemoryTier.writes_delete _ _ _)).bind fun _ => ?_
  refine stays_memoryOnly.bind fun memoryOnly => ?_
  extract_lets finish
  have hfinish : ∀ ok', Aside (finish ok') := fun _ =>
    (aside_changeCache fun _ c => (TieredCache.aside_count rfl).trans
      (TieredCache.aside_publish _ _)).bind fun _ => stays_pure _
  split
  · exact (stays_pure _).bind hfinish
  · exact (aside_tierDelete key).bind fun _ => (stays_pure _).bind hfinish

theorem aside_invalidate (pattern : String) : Aside (invalidate pattern) := by
  unfold invalidate
  refine (aside_onCache fun now c =>
    TieredCache.aside_onMemory c _ (MemoryTier.writes_removeMatching _ _ _ _)).bind fun here => ?_
  refine stays_memoryOnly.bind fun memoryOnly => ?_
  extract_lets finish
  have hfinish : ∀ there, Aside (finish there) := fun _ =>
    (aside_changeCache fun _ c => TieredCache.aside_publish c _).bind fun _ => stays_pure _
  split
  · exact (stays_pure _).bind hfinish
  · exact (aside_tierDeleteMatching pattern).bind fun _ => (stays_pure _).bind hfinish

theorem aside_sweep : Aside sweep :=
  aside_onCache fun _ c => TieredCache.aside_onMemory c _ (MemoryTier.writes_sweep _ _ _)

theorem aside_clearLocal : Aside clearLocal :=
  aside_changeCache fun _ c => TieredCache.aside_onMemory c _ rfl

theorem aside_flush : Aside flush := stays_waitUntil _

end Act

namespace WriteBooks

variable {c₀ c : TieredCache} {H : List WriteEvent}

theorem aside (hB : WriteBooks c₀ c H) {c' : TieredCache} (ha : TieredCache.Aside c c') :
    WriteBooks c₀ c' H := by
  obtain ⟨hw, hm, hmem⟩ := ha
  simp only [Metrics.writes, Prod.mk.injEq] at hm
  have ht : c'.writeBehind.nextTicket = c.writeBehind.nextTicket := by rw [hw]
  refine ⟨hmem.trans hB.memoryOnly, ?_, ?_, ?_, ?_, ?_, ?_, ?_, ?_⟩
  · rw [hw]
    exact hB.unscheduled
  · rw [hw]
    exact hB.since
  · rw [hm.1, hw]
    exact hB.scheduled
  · rw [ht, hw]
    exact hB.pending
  · rw [ht, hm.2]
    exact hB.failed
  · rw [ht, hw]
    exact hB.permits
  · rw [hw]
    exact hB.served
  · rw [hw]
    exact hB.order

theorem handout (hB : WriteBooks c₀ c H) (hdist : c.memoryOnly = false)
    (hfresh : ∀ e ∈ H, e.ticket < c.writeBehind.nextTicket) :
    WriteBooks c₀
      { c with
        writeBehind := { c.writeBehind with pending := c.writeBehind.pending + 1,
                                            nextTicket := c.writeBehind.nextTicket + 1 }
        metrics := c.metrics.writeBehind } H := by
  have hsince := hB.since
  -- the tickets handed out gain the one handed now, of which nothing is noted
  have htickets := ticketsFrom_succ hsince
  have hnone : ∀ e ∈ H, e.ticket ≠ c.writeBehind.nextTicket := fun e he => Nat.ne_of_lt (hfresh e he)
  have hfin : WriteEvent.finished c.writeBehind.nextTicket ∉ H := fun h => hnone _ h rfl
  have hfail : WriteEvent.failed c.writeBehind.nextTicket ∉ H := fun h => hnone _ h rfl
  have hin : ¬ WriteEvent.Inside H c.writeBehind.nextTicket := fun h => hnone _ h.1 rfl
  refine ⟨hB.memoryOnly, fun h => ?_, by simp only; omega, ?_, ?_, ?_, ?_, hB.served, hB.order⟩
  · rw [hB.memoryOnly] at hdist
    simp [hdist] at h
  · simp only [Metrics.writeBehind, hB.scheduled]
    omega
  · dsimp only
    rw [htickets, List.countP_append]
    simp [hfin, hB.pending]
  · dsimp only
    rw [htickets, List.countP_append]
    simp [hfail, Metrics.writeBehind, hB.failed]
  · dsimp only
    rw [htickets, List.countP_append]
    simp [hin, hB.permits]

/-- A write taking its permit on its turn keeps the books: one more write inside its call, the
next ticket's turn. -/
theorem enter (hB : WriteBooks c₀ c H) {t : Nat}
    (ht : t ∈ ticketsFrom c₀.writeBehind.nextTicket c.writeBehind.nextTicket) (hturn : c.writeBehind.serving = t) (hfree : 0 < c.writeBehind.permits)
    (htrail : WriteEvent.trail H t = []) :
    WriteBooks c₀
      { c with writeBehind := { c.writeBehind with permits := c.writeBehind.permits - 1,
                                                   serving := c.writeBehind.serving + 1 } }
      (H ++ [.entered t]) := by
  have hserved := hB.served
  have hnew : ∀ e : WriteEvent, e.ticket = t → e ∉ H := fun e he hmem => by
    rw [← WriteEvent.mem_trail he, htrail] at hmem
    cases hmem
  have hinside := countP_change (q := fun t' => WriteEvent.Inside (H ++ [.entered t]) t')
    (p := fun t' => WriteEvent.Inside H t') (ticketsFrom_nodup _ _) ht fun t' ht' =>
      decide_eq_decide.2 (WriteEvent.inside_note_of_ne H (e := .entered t) ht'.symm)
  have hbefore : ¬ WriteEvent.Inside H t := fun h => hnew _ rfl h.1
  have hafter : WriteEvent.Inside (H ++ [.entered t]) t := by
    simp [WriteEvent.Inside, hnew (.left t true) rfl, hnew (.left t false) rfl]
  simp only [hbefore, hafter, decide_false, decide_true, Bool.false_eq_true, if_false, if_true] at hinside
  refine ⟨hB.memoryOnly, hB.unscheduled, hB.since, hB.scheduled, ?_, ?_, ?_, by simp only; omega, ?_⟩
  · exact hB.pending.trans (countP_same fun t' => by simp).symm
  · exact hB.failed.trans (congrArg _ (countP_same fun t' => by simp).symm)
  · have := hB.permits
    simp only
    omega
  · simp only [List.filterMap_append, hB.order, WriteEvent.entered?, List.filterMap_cons,
      List.filterMap_nil]
    rw [show c.writeBehind.serving + 1 - c₀.writeBehind.nextTicket =
      c.writeBehind.serving - c₀.writeBehind.nextTicket + 1 by omega, List.range'_concat]
    congr 2
    omega

theorem leave (hB : WriteBooks c₀ c H) {t : Nat}
    (ht : t ∈ ticketsFrom c₀.writeBehind.nextTicket c.writeBehind.nextTicket)
    (htrail : WriteEvent.trail H t = [.entered t]) (ok : Bool) :
    WriteBooks c₀ { c with writeBehind := { c.writeBehind with permits := c.writeBehind.permits + 1 } }
      (H ++ [.left t ok]) := by
  have hmem : ∀ e : WriteEvent, e.ticket = t → (e ∈ H ↔ e = .entered t) := fun e he => by
    rw [← WriteEvent.mem_trail he, htrail, List.mem_singleton]
  have hinside := countP_change (q := fun t' => WriteEvent.Inside (H ++ [.left t ok]) t')
    (p := fun t' => WriteEvent.Inside H t') (ticketsFrom_nodup _ _) ht fun t' ht' =>
      decide_eq_decide.2 (WriteEvent.inside_note_of_ne H (e := .left t ok) ht'.symm)
  have hbefore : WriteEvent.Inside H t := by
    simp [WriteEvent.Inside, hmem (.entered t) rfl, hmem (.left t true) rfl, hmem (.left t false) rfl]
  have hafter : ¬ WriteEvent.Inside (H ++ [.left t ok]) t := by
    cases ok <;> simp [WriteEvent.Inside]
  simp only [hbefore, hafter, decide_false, decide_true, Bool.false_eq_true, if_false, if_true] at hinside
  refine ⟨hB.memoryOnly, hB.unscheduled, hB.since, hB.scheduled, ?_, ?_, ?_, hB.served, ?_⟩
  · exact hB.pending.trans (countP_same fun t' => by simp).symm
  · exact hB.failed.trans (congrArg _ (countP_same fun t' => by simp).symm)
  · have := hB.permits
    simp only
    omega
  · exact (WriteEvent.entered_note rfl).trans hB.order

theorem tally (hB : WriteBooks c₀ c H) {t : Nat}
    (ht : t ∈ ticketsFrom c₀.writeBehind.nextTicket c.writeBehind.nextTicket)
    (hnew : .failed t ∉ H) :
    WriteBooks c₀ (c.count Metrics.writeBehindFailure) (H ++ [.failed t]) := by
  have hfailed := countP_change (q := fun t' => WriteEvent.failed t' ∈ H ++ [.failed t])
    (p := fun t' => WriteEvent.failed t' ∈ H) (ticketsFrom_nodup _ _) ht fun t' ht' => by simp [ht']
  have hnow : WriteEvent.failed t ∈ H ++ [.failed t] := by simp
  simp only [hnew, hnow, decide_false, decide_true, Bool.false_eq_true, if_false, if_true] at hfailed
  refine ⟨hB.memoryOnly, hB.unscheduled, hB.since, hB.scheduled, ?_, ?_, ?_, hB.served, ?_⟩
  · exact hB.pending.trans (countP_same fun t' => by simp).symm
  · simp only [TieredCache.count, Metrics.writeBehindFailure, hB.failed]
    omega
  · exact (congrArg _ (countP_same fun t' => decide_eq_decide.2 (by simp [WriteEvent.Inside]))).trans hB.permits
  · exact (WriteEvent.entered_note rfl).trans hB.order

theorem finish (hB : WriteBooks c₀ c H) {t : Nat}
    (ht : t ∈ ticketsFrom c₀.writeBehind.nextTicket c.writeBehind.nextTicket)
    (hnew : .finished t ∉ H) :
    WriteBooks c₀ { c with writeBehind := { c.writeBehind with pending := c.writeBehind.pending - 1 } }
      (H ++ [.finished t]) := by
  have hpending := countP_change (q := fun t' => WriteEvent.finished t' ∉ H ++ [.finished t])
    (p := fun t' => WriteEvent.finished t' ∉ H) (ticketsFrom_nodup _ _) ht fun t' ht' => by simp [ht']
  have hnow : WriteEvent.finished t ∈ H ++ [.finished t] := by simp
  simp only [hnew, hnow, not_true, not_false_eq_true, decide_false, decide_true, Bool.false_eq_true,
    if_false, if_true] at hpending
  refine ⟨hB.memoryOnly, hB.unscheduled, hB.since, hB.scheduled, ?_, ?_, ?_, hB.served, ?_⟩
  · have := hB.pending
    simp only
    omega
  · exact hB.failed.trans (congrArg _ (countP_same fun t' => by simp).symm)
  · exact (congrArg _ (countP_same fun t' => decide_eq_decide.2 (by simp [WriteEvent.Inside]))).trans hB.permits
  · exact (WriteEvent.entered_note rfl).trans hB.order

theorem start (c : TieredCache) (hpending : c.writeBehind.pending = 0)
    (hserving : c.writeBehind.serving = c.writeBehind.nextTicket) : WriteBooks c c [] :=
  ⟨rfl, fun _ => rfl, le_refl _, by simp, by simp [ticketsFrom, hpending], by simp, by simp [ticketsFrom],
    hserving ▸ le_refl _, by simp [hserving]⟩

theorem inside_le (hB : WriteBooks c₀ c H) :
    (ticketsFrom c₀.writeBehind.nextTicket c.writeBehind.nextTicket).countP (WriteEvent.Inside H) ≤
      c₀.writeBehind.permits := by
  have := hB.permits
  omega

end WriteBooks

namespace WriteTrails

variable {t₀ n : Nat} {H : List WriteEvent} {M : Multiset WriteShare}

-- Two shares of a crowd hold different tickets.
theorem ne_of_mem {o o' : WriteShare} (hT : WriteTrails t₀ n H (o ::ₘ M)) {t t' : Nat}
    (ho : o.ticket? = some t) (ho' : o' ∈ M) (ht' : o'.ticket? = some t') : t ≠ t' := by
  have hnodup := hT.distinct
  rw [Multiset.filterMap_cons_some WriteShare.ticket? _ _ ho, Multiset.nodup_cons] at hnodup
  rintro rfl
  exact hnodup.1 ((Multiset.mem_filterMap _ _).2 ⟨o', ho', ht'⟩)

-- Every event of the history is of a ticket below the next one.
theorem ticket_lt (hT : WriteTrails t₀ n H M) {e : WriteEvent} (he : e ∈ H) : e.ticket < n := by
  obtain ⟨ph, hph⟩ := hT.heard e he
  exact (hT.issued _ hph e.ticket rfl).2

theorem note {t : Nat} {ph ph' : WritePhase} {e : WriteEvent} (hT : WriteTrails t₀ n H (.job t ph ::ₘ M))
    (he : e.ticket = t) (hph : ph'.trail t = ph.trail t ++ [e]) :
    WriteTrails t₀ n (H ++ [e]) (.job t ph' ::ₘ M) where
  trail t' ph'' h := by
    rcases Multiset.mem_cons.1 h with h | h
    · cases h
      rw [← he, WriteEvent.trail_note, he, hT.trail t ph (Multiset.mem_cons_self _ _), hph]
    · have hne : t ≠ t' := hT.ne_of_mem rfl h rfl
      rw [WriteEvent.trail_note_of_ne _ (he ▸ hne), hT.trail t' ph'' (Multiset.mem_cons_of_mem h)]
  heard e' h := by
    rcases List.mem_append.1 h with h | h
    · obtain ⟨ph'', h''⟩ := hT.heard e' h
      rcases Multiset.mem_cons.1 h'' with h'' | h''
      · cases h''
        exact ⟨ph', Multiset.mem_cons_self _ _⟩
      · exact ⟨ph'', Multiset.mem_cons_of_mem h''⟩
    · rw [List.mem_singleton.1 h, he]
      exact ⟨ph', Multiset.mem_cons_self _ _⟩
  distinct := by
    have hnodup := hT.distinct
    rwa [Multiset.filterMap_cons_some WriteShare.ticket? _ _ rfl] at hnodup ⊢
  issued o h t' ht' := by
    rcases Multiset.mem_cons.1 h with rfl | h
    · exact hT.issued _ (Multiset.mem_cons_self _ _) t' ht'
    · exact hT.issued o (Multiset.mem_cons_of_mem h) t' ht'

theorem handout (hT : WriteTrails t₀ n H (.caller none ::ₘ M)) (hn : t₀ ≤ n) :
    WriteTrails t₀ (n + 1) H (.caller (some n) ::ₘ M) where
  trail t ph h := by
    rcases Multiset.mem_cons.1 h with h | h
    · cases h
    · exact hT.trail t ph (Multiset.mem_cons_of_mem h)
  heard e h := by
    obtain ⟨ph, hph⟩ := hT.heard e h
    rcases Multiset.mem_cons.1 hph with hph | hph
    · cases hph
    · exact ⟨ph, Multiset.mem_cons_of_mem hph⟩
  distinct := by
    have hnodup := hT.distinct
    rw [Multiset.filterMap_cons_none (f := WriteShare.ticket?) _ _ rfl] at hnodup
    rw [Multiset.filterMap_cons_some WriteShare.ticket? _ _ rfl, Multiset.nodup_cons]
    refine ⟨fun hmem => ?_, hnodup⟩
    -- every ticket held before is below the one handed out
    obtain ⟨o, ho, hon⟩ := (Multiset.mem_filterMap _ _).1 hmem
    exact absurd (hT.issued o (Multiset.mem_cons_of_mem ho) n hon).2 (Nat.lt_irrefl n)
  issued o h t ht := by
    rcases Multiset.mem_cons.1 h with rfl | h
    · cases ht
      exact ⟨hn, Nat.lt_succ_self n⟩
    · have := hT.issued o (Multiset.mem_cons_of_mem h) t ht
      omega

theorem handover {t : Nat} (hT : WriteTrails t₀ n H (.caller (some t) ::ₘ M)) :
    WriteTrails t₀ n H (.caller none ::ₘ (M + {.job t .queued})) where
  trail t' ph h := by
    rcases Multiset.mem_cons.1 h with h | h
    · cases h
    rcases Multiset.mem_add.1 h with h | h
    · exact hT.trail t' ph (Multiset.mem_cons_of_mem h)
    · cases Multiset.mem_singleton.1 h
      -- no event is of the ticket: every event is of a job's, and the caller held this one
      refine List.filter_eq_nil_iff.2 fun e he hte => ?_
      obtain ⟨ph', hph'⟩ := hT.heard e he
      rcases Multiset.mem_cons.1 hph' with hph' | hph'
      · cases hph'
      · exact hT.ne_of_mem rfl hph' rfl (of_decide_eq_true hte).symm
  heard e h := by
    obtain ⟨ph, hph⟩ := hT.heard e h
    rcases Multiset.mem_cons.1 hph with hph | hph
    · cases hph
    · exact ⟨ph, Multiset.mem_cons_of_mem (Multiset.mem_add.2 (.inl hph))⟩
  distinct := by
    have hnodup := hT.distinct
    rw [Multiset.filterMap_cons_some WriteShare.ticket? _ _ rfl] at hnodup
    have hjob : Multiset.filterMap WriteShare.ticket? {WriteShare.job t .queued} = {t} := rfl
    rw [Multiset.filterMap_cons_none (f := WriteShare.ticket?) _ _ rfl, Multiset.filterMap_add, hjob,
      Multiset.add_comm, Multiset.singleton_add]
    exact hnodup
  issued o h t' ht' := by
    rcases Multiset.mem_cons.1 h with rfl | h
    · cases ht'
    rcases Multiset.mem_add.1 h with h | h
    · exact hT.issued o (Multiset.mem_cons_of_mem h) t' ht'
    · cases Multiset.mem_singleton.1 h
      exact hT.issued _ (Multiset.mem_cons_self _ _) t' ht'

theorem start {S : Multiset WriteShare} (hS : ∀ o ∈ S, o = .caller none) : WriteTrails t₀ n [] S where
  trail t ph h := absurd (hS _ h) (by simp)
  heard _ h := absurd h List.not_mem_nil
  distinct := by
    rw [Multiset.eq_zero_of_forall_notMem (s := S.filterMap WriteShare.ticket?) fun t ht => ?_]
    · exact Multiset.nodup_zero
    obtain ⟨o, ho, hto⟩ := (Multiset.mem_filterMap _ _).1 ht
    rw [hS o ho] at hto
    cases hto
  issued o h t ht := by
    rw [hS o h] at ht
    cases ht

theorem trail_of_finished (hT : WriteTrails t₀ n H M) {t : Nat} (h : .finished t ∈ H) :
    ∃ ok, WriteEvent.trail H t = [.entered t, .left t ok] ++ (if ok then [] else [.failed t]) ++
      [.finished t] := by
  obtain ⟨ph, hph⟩ := hT.heard _ h
  have htrail := hT.trail t ph hph
  rw [← WriteEvent.mem_trail (t := t) rfl, htrail] at h
  obtain ⟨ok, rfl⟩ := WritePhase.done_of_finished h
  exact ⟨ok, htrail⟩

theorem left_false_of_failed (hT : WriteTrails t₀ n H M) {t : Nat} (h : .failed t ∈ H) :
    .left t false ∈ H := by
  obtain ⟨ph, hph⟩ := hT.heard _ h
  have htrail := hT.trail t ph hph
  rw [← WriteEvent.mem_trail (t := t) rfl, htrail] at h
  rw [← WriteEvent.mem_trail (t := t) rfl, htrail]
  exact WritePhase.left_false_of_failed h

end WriteTrails

/-! ## The host with the history of its writes -/

namespace Act

/-- A change of the cache, made with an event noted in the history. -/
def changeCacheNoting (f : Nat → TieredCache → TieredCache) (e : WriteEvent) :
    Fiber (Host × List WriteEvent) Unit :=
  Fiber.modify fun p => ({ p.1 with cache := f p.1.clock p.1.cache }, p.2 ++ [e])

/-- The rest of a write-behind job once it holds its permit, noting each step of its write in the
history as it makes it: the call, the permit given back, the failure counted, the end. -/
def writeBehindTail (key : String) (frame : ByteArray) (ttlMs : Nat) (ticket : Nat) :
    Fiber (Host × List WriteEvent) Unit := do
  let r ← (tierSet key frame ttlMs).lift _
  changeCacheNoting (fun _ c =>
    { c with writeBehind := { c.writeBehind with permits := c.writeBehind.permits + 1 } })
    (.left ticket r.toBool)
  if !r.toBool then changeCacheNoting (fun _ c => c.count Metrics.writeBehindFailure) (.failed ticket)
  changeCacheNoting (fun _ c =>
    { c with writeBehind := { c.writeBehind with pending := c.writeBehind.pending - 1 } })
    (.finished ticket)

/-- A write-behind job that notes each step of its write in the history as it makes it: the job
the host runs, each change of the books made with its note. -/
def writeBehindJobNoted (key : String) (frame : ByteArray) (ttlMs : Nat) (ticket : Nat) :
    Fiber (Host × List WriteEvent) Unit := do
  (Fiber.waitUntil fun h =>
    h.cache.writeBehind.serving == ticket && h.cache.writeBehind.permits > 0).lift _
  changeCacheNoting (fun _ c =>
    { c with writeBehind := { c.writeBehind with permits := c.writeBehind.permits - 1,
                                                 serving := c.writeBehind.serving + 1 } })
    (.entered ticket)
  writeBehindTail key frame ttlMs ticket

theorem shadows_changeCacheNoting (f : Nat → TieredCache → TieredCache) (e : WriteEvent) :
    Fiber.Shadows (changeCacheNoting f e) (changeCache f) :=
  .write (fun _ => rfl) (.done ())

theorem shadows_writeBehindJobNoted (key : String) (frame : ByteArray) (ttlMs ticket : Nat) :
    Fiber.Shadows (writeBehindJobNoted key frame ttlMs ticket) (writeBehindJob key frame ttlMs ticket) := by
  refine (Fiber.Shadows.lift _).bind fun _ => (shadows_changeCacheNoting _ _).bind fun _ => ?_
  unfold writeBehindTail
  refine (Fiber.Shadows.lift _).bind fun r => (shadows_changeCacheNoting _ _).bind fun _ => ?_
  extract_lets finishNoted finish
  have hfinish : ∀ u, Fiber.Shadows (finishNoted u) (finish u) := fun _ => shadows_changeCacheNoting _ _
  cases r.toBool
  · exact (shadows_changeCacheNoting _ _).bind hfinish
  · exact hfinish ()

end Act

/-- A job run with the history beside it: a write-behind write notes its steps. -/
def launchNoting : Job → Fiber (Host × List WriteEvent) Unit
  | .writeBehind key frame ttlMs ticket => Act.writeBehindJobNoted key frame ttlMs ticket
  | j => (Act.launch j).lift _

/-- The host's stage with the history of the write-behind writes beside it; the stage itself notes
nothing. -/
def Host.writeLog : Stage (Host × List WriteEvent) Job := Host.stage.ghost (fun _ H => H) launchNoting

theorem writeLog_shadowable : Host.stage.Shadowable (fun _ H => H) launchNoting where
  takeJobs_idle _ := rfl
  setClock_idle h t hidle := by
    have hnil : h.requested = [] := (Prod.ext_iff.1 hidle).1
    show (_, _) = (_, _)
    cases h
    simp_all [Host.stage]
  onJobs_nil _ := rfl
  launch j := by
    cases j with
    | writeBehind key frame ttlMs ticket =>
      exact ⟨Act.shadows_writeBehindJobNoted key frame ttlMs ticket, trivial⟩
    | warm => exact ⟨Fiber.Shadows.lift _, Fiber.sameStep_lift _⟩
    | loop => exact ⟨Fiber.Shadows.lift _, Fiber.sameStep_lift _⟩

theorem writeLog_takeJobs (p : Host × List WriteEvent) :
    Host.writeLog.takeJobs p = (p.1.requested, { p.1 with requested := [] }, p.2) :=
  rfl

-- With no job asked for, taking the jobs changes nothing.
theorem writeLog_takeJobs_idle {p : Host × List WriteEvent} (hp : p.1.requested = []) :
    Host.writeLog.takeJobs p = ([], p) := by
  obtain ⟨h, H⟩ := p
  simp only at hp
  rw [writeLog_takeJobs]
  cases h
  simp_all

/-! ## What the fibers hold of the books -/

/-- No job waits to start, the books agree with the history, and the history with the shares. -/
structure WritesKept (c₀ : TieredCache) (p : Host × List WriteEvent) (S : Multiset WriteShare) :
    Prop where
  idle : p.1.requested = []
  books : WriteBooks c₀ p.1.cache p.2
  trails : WriteTrails c₀.writeBehind.nextTicket p.1.cache.writeBehind.nextTicket p.2 S

/-- How the callers and the write-behind jobs share the host with the history of the writes, since
the cache `c₀`: a caller holds the ticket of a write it has counted and not yet handed over, a job
its ticket and how far it has gone. A caller ends holding no ticket, a job done. -/
def writeShares (c₀ : TieredCache) : Sharing (Host × List WriteEvent) Job WriteShare where
  Inv := WritesKept c₀
  hold
    | .writeBehind _ _ _ t => .job t .queued
    | _ => .caller none
  Spawnable := Job.WritesBehind
  Ended
    | .caller owed => owed = none
    | .job _ ph => ∃ ok, ph = .done ok

section Keeps

variable {c₀ : TieredCache} {o o' : WriteShare} {p : Host × List WriteEvent}

theorem keeps_idle {G : Host × List WriteEvent → Host × List WriteEvent}
    (hkeep : ∀ M, WritesKept c₀ p (o ::ₘ M) → WritesKept c₀ (G p) (o' ::ₘ M)) :
    Stage.Keeps Host.writeLog (writeShares c₀) o G p o' := by
  intro M hI
  have hI' := hkeep M hI
  rw [writeLog_takeJobs_idle hI'.idle]
  refine ⟨fun _ hj => absurd hj List.not_mem_nil, ?_⟩
  simp only [List.map_nil, Multiset.coe_nil, add_zero]
  exact hI'

theorem WritesKept.aside {S : Multiset WriteShare} (hI : WritesKept c₀ p S) {h' : Host}
    (ha : Host.Aside p.1 h') : WritesKept c₀ (h', p.2) S := by
  have hticket : h'.cache.writeBehind.nextTicket = p.1.cache.writeBehind.nextTicket := by rw [ha.2.1]
  exact ⟨ha.1.trans hI.idle, hI.books.aside ha.2, hticket ▸ hI.trails⟩

theorem WritesKept.enter {t : Nat} {M : Multiset WriteShare}
    (hI : WritesKept c₀ p (.job t .queued ::ₘ M)) (hturn : p.1.cache.writeBehind.serving = t)
    (hfree : 0 < p.1.cache.writeBehind.permits) :
    WritesKept c₀
      ({ p.1 with cache := { p.1.cache with writeBehind := { p.1.cache.writeBehind with
          permits := p.1.cache.writeBehind.permits - 1,
          serving := p.1.cache.writeBehind.serving + 1 } } }, p.2 ++ [.entered t])
      (.job t .inside ::ₘ M) := by
  have ht := hI.trails.issued _ (Multiset.mem_cons_self _ _) t rfl
  exact ⟨hI.idle, hI.books.enter (mem_ticketsFrom.2 ht) hturn hfree
    (hI.trails.trail t _ (Multiset.mem_cons_self _ _)), hI.trails.note rfl rfl⟩

theorem WritesKept.leave {t : Nat} {M : Multiset WriteShare}
    (hI : WritesKept c₀ p (.job t .inside ::ₘ M)) (ok : Bool) :
    WritesKept c₀
      ({ p.1 with cache := { p.1.cache with writeBehind := { p.1.cache.writeBehind with
          permits := p.1.cache.writeBehind.permits + 1 } } }, p.2 ++ [.left t ok])
      (.job t (.back ok) ::ₘ M) := by
  have ht := hI.trails.issued _ (Multiset.mem_cons_self _ _) t rfl
  exact ⟨hI.idle, hI.books.leave (mem_ticketsFrom.2 ht) (hI.trails.trail t _ (Multiset.mem_cons_self _ _)) ok,
    hI.trails.note rfl rfl⟩

theorem WritesKept.tally {t : Nat} {M : Multiset WriteShare}
    (hI : WritesKept c₀ p (.job t (.back false) ::ₘ M)) :
    WritesKept c₀ ({ p.1 with cache := p.1.cache.count Metrics.writeBehindFailure }, p.2 ++ [.failed t])
      (.job t .counted ::ₘ M) := by
  have ht := hI.trails.issued _ (Multiset.mem_cons_self _ _) t rfl
  have htrail := hI.trails.trail t _ (Multiset.mem_cons_self _ _)
  have hnew : WriteEvent.failed t ∉ p.2 := by
    rw [← WriteEvent.mem_trail (t := t) rfl, htrail]
    simp [WritePhase.trail]
  exact ⟨hI.idle, hI.books.tally (mem_ticketsFrom.2 ht) hnew, hI.trails.note rfl rfl⟩

theorem WritesKept.finish {t : Nat} {ph : WritePhase} {ok : Bool} {M : Multiset WriteShare}
    (hI : WritesKept c₀ p (.job t ph ::ₘ M))
    (hph : (WritePhase.done ok).trail t = ph.trail t ++ [.finished t])
    (hnot : .finished t ∉ ph.trail t) :
    WritesKept c₀
      ({ p.1 with cache := { p.1.cache with writeBehind := { p.1.cache.writeBehind with
          pending := p.1.cache.writeBehind.pending - 1 } } }, p.2 ++ [.finished t])
      (.job t (.done ok) ::ₘ M) := by
  have ht := hI.trails.issued _ (Multiset.mem_cons_self _ _) t rfl
  have hnew : WriteEvent.finished t ∉ p.2 := by
    rwa [← WriteEvent.mem_trail (t := t) rfl, hI.trails.trail t _ (Multiset.mem_cons_self _ _)]
  exact ⟨hI.idle, hI.books.finish (mem_ticketsFrom.2 ht) hnew, hI.trails.note rfl hph⟩

theorem WritesKept.handout {M : Multiset WriteShare} (hI : WritesKept c₀ p (.caller none ::ₘ M))
    (hdist : c₀.memoryOnly = false) :
    WritesKept c₀
      ({ p.1 with
        cache := { p.1.cache with
          writeBehind := { p.1.cache.writeBehind with
            pending := p.1.cache.writeBehind.pending + 1
            nextTicket := p.1.cache.writeBehind.nextTicket + 1 }
          metrics := p.1.cache.metrics.writeBehind } }, p.2)
      (.caller (some p.1.cache.writeBehind.nextTicket) ::ₘ M) :=
  ⟨hI.idle, hI.books.handout (hI.books.memoryOnly.trans hdist) fun _ he => hI.trails.ticket_lt he,
    hI.trails.handout hI.books.since⟩

end Keeps

/-! ## Programs run with the history beside them -/

section Runs

variable {c₀ : TieredCache} {α β : Type} {o o' : WriteShare}

-- A program whose every change leaves the books alone runs with the history beside it, keeping
-- its share.
theorem runs_lift_of_aside {f : Act α} {h : Host} (hf : Stage.Within Host.stage Host.Aside h f) :
    ∀ H M, WritesKept c₀ (h, H) (o ::ₘ M) →
      Stage.Runs Host.writeLog (writeShares c₀)
        (fun _ o' p' => o' = o ∧ ∃ M', WritesKept c₀ p' (o' ::ₘ M')) o (h, H) (f.lift _) := by
  -- induction on the program's steps; a read is followed by a step that changes nothing
  induction hf with
  | done => exact fun H M hI => .done ⟨rfl, M, hI⟩
  | @read k h _ ih =>
    intro H M hI
    refine .read (.write o (keeps_idle fun _ hI' => hI') ?_)
    rw [writeLog_takeJobs_idle hI.idle]
    exact ih H M hI
  | @write g k h hg _ ih =>
    intro H M hI
    have hI' := hI.aside hg
    exact .write o (keeps_idle fun _ hI' => hI'.aside hg) (ih H M ⟨rfl, hI'.books, hI'.trails⟩)
  | wait _ ih =>
    intro H M hI
    exact .wait (fun _ => o) (fun _ _ hI _ => hI) fun p M hI _ => ih p.1 p.2 M hI
  | pass _ ih =>
    intro H M hI
    exact .pass fun p M hI => ih p.1 p.2 M hI

theorem holds_note {f : Nat → TieredCache → TieredCache} {e : WriteEvent}
    (hkeep : ∀ p M, WritesKept c₀ p (o ::ₘ M) →
      WritesKept c₀ ({ p.1 with cache := f p.1.clock p.1.cache }, p.2 ++ [e]) (o' ::ₘ M)) :
    Stage.Holds Host.writeLog (writeShares c₀) (fun _ o'' => o'' = o') o (Act.changeCacheNoting f e) := by
  intro p M hI
  have hk : Stage.Keeps Host.writeLog (writeShares c₀) o
      (fun q => ({ q.1 with cache := f q.1.clock q.1.cache }, q.2 ++ [e])) p o' :=
    keeps_idle fun M hI => hkeep p M hI
  exact .write o' hk (.done ⟨rfl, _, (hk M hI).2⟩)

end Runs

namespace Act

variable {c₀ : TieredCache} {α β : Type} {o : WriteShare}

/-- A program of the host, run with the history of the writes beside it, from a share `o` to an
answer and a share `Q` allows. -/
def Booked (c₀ : TieredCache) (Q : α → WriteShare → Prop) (o : WriteShare) (f : Act α) : Prop :=
  Stage.Holds Host.writeLog (writeShares c₀) Q o (f.lift _)

theorem Booked.bind {Q : α → WriteShare → Prop} {Q' : β → WriteShare → Prop} {f : Act α}
    {g : α → Act β} (hf : Booked c₀ Q o f) (hg : ∀ a o', Q a o' → Booked c₀ Q' o' (g a)) :
    Booked c₀ Q' o (f >>= g) := by
  unfold Booked
  rw [Fiber.lift_bind]
  exact Stage.Holds.bind hf hg

theorem booked_pure {Q : α → WriteShare → Prop} {a : α} (hq : Q a o) : Booked c₀ Q o (pure a) :=
  Stage.holds_pure hq

theorem booked_of_aside {f : Act α} (hf : Aside f) : Booked c₀ (fun _ o' => o' = o) o f :=
  fun p M hI => runs_lift_of_aside (hf p.1) p.2 M hI

theorem Aside.booked_bind {f : Act α} {g : α → Act β} {Q : β → WriteShare → Prop}
    (hf : Aside f) (hg : ∀ a, Booked c₀ Q o (g a)) : Booked c₀ Q o (f >>= g) :=
  (booked_of_aside hf).bind fun a _ ho' => ho' ▸ hg a

theorem booked_giveWay : Booked c₀ (fun _ o' => o' = o) o Fiber.giveWay :=
  fun _ _ _ => .pass fun _ M hI => .done ⟨rfl, M, hI⟩

-- Whether there is a distributed tier is what it was at the start.
theorem booked_memoryOnly : Booked c₀ (fun b o' => o' = o ∧ b = c₀.memoryOnly) o memoryOnly := by
  intro p M hI
  refine .read (.write o (keeps_idle fun _ hI' => hI') ?_)
  rw [writeLog_takeJobs_idle hI.idle]
  exact .done ⟨⟨rfl, hI.books.memoryOnly⟩, M, hI⟩

theorem booked_modifyGet {F : Host → α × Host} {Q : α → WriteShare → Prop} (share : Host → WriteShare)
    (hF : ∀ p M, WritesKept c₀ p (o ::ₘ M) → WritesKept c₀ ((F p.1).2, p.2) (share p.1 ::ₘ M))
    (hq : ∀ h, Q (F h).1 (share h)) :
    Booked c₀ Q o (Fiber.modifyGet F) := by
  intro p M hI
  have hk : Stage.Keeps Host.writeLog (writeShares c₀) o (fun q => ((F p.1).2, q.2)) p (share p.1) :=
    keeps_idle fun M hI => hF p M hI
  refine .read (.write o (keeps_idle fun _ hI' => hI') ?_)
  rw [writeLog_takeJobs_idle hI.idle]
  exact .write _ hk (.done ⟨hq p.1, _, (hk M hI).2⟩)

/-- A caller starting the job of the write whose ticket it holds hands the ticket over. -/
theorem booked_spawn (key : String) (frame : ByteArray) (ttlMs t : Nat) :
    Booked c₀ (fun _ o' => o' = .caller none) (.caller (some t))
      (spawn (.writeBehind key frame ttlMs t)) := by
  intro p M hI
  have hk : Stage.Keeps Host.writeLog (writeShares c₀) (.caller (some t))
      (fun q => ({ q.1 with requested := q.1.requested ++ [.writeBehind key frame ttlMs t] }, q.2)) p
      (.caller none) := by
    intro M hI
    have hreq : p.1.requested ++ [Job.writeBehind key frame ttlMs t] = [.writeBehind key frame ttlMs t] := by
      rw [hI.idle, List.nil_append]
    simp only [writeLog_takeJobs, hreq, List.mem_singleton, forall_eq, List.map_cons, List.map_nil,
      Multiset.coe_singleton]
    exact ⟨trivial, rfl, hI.books, hI.trails.handover⟩
  exact .write _ hk (.done ⟨rfl, _, (hk M hI).2⟩)

-- In memory-only mode nothing is scheduled.
theorem booked_scheduleWrite (key : String) (v : ByteArray) (ttlMs : Nat) :
    Booked c₀ (fun _ o' => o' = .caller none) (.caller none) (scheduleWrite key v ttlMs) := by
  unfold scheduleWrite
  refine booked_memoryOnly.bind fun memOnly o' ⟨ho', hmem⟩ => ?_
  subst ho'
  split
  · exact booked_pure rfl
  · rename_i hfalse
    have hdist : c₀.memoryOnly = false := by simpa [hmem] using hfalse
    refine (booked_modifyGet (fun h => .caller (some h.cache.writeBehind.nextTicket))
      (Q := fun ft o' => o' = .caller (some ft.2)) (fun p M hI => hI.handout hdist)
      fun _ => rfl).bind fun ft o' ho' => ?_
    subst ho'
    exact booked_spawn key _ ttlMs ft.2

theorem booked_setRaw (key : String) (v : ByteArray) (ttlMs : Option Nat) (strategy : WriteStrategy) :
    Booked c₀ (fun _ o' => o' = .caller none) (.caller none) (setRaw key v ttlMs strategy) := by
  unfold setRaw
  refine Aside.booked_bind (stays_look _) fun ttl => ?_
  extract_lets remember finish
  have hremember : Aside remember := aside_changeCache fun _ c => TieredCache.aside_remember c _ _ _ _ _
  -- once the tiers are written: the write is counted, and published if it worked
  have hfinish : ∀ ok, Aside (finish ok) := by
    intro ok
    refine (aside_count _ fun _ => by rfl).bind fun _ => ?_
    split
    · exact (aside_changeCache fun _ c => (TieredCache.aside_publish c _).trans
        (TieredCache.aside_offerTrigger _ _)).bind fun _ => stays_pure _
    · exact stays_pure _
  split
  · exact hremember.booked_bind fun _ => Aside.booked_bind (aside_writeThrough _ _ _) fun ok =>
      booked_of_aside (hfinish ok)
  · exact (aside_writeThrough _ _ _).booked_bind fun ok => hremember.booked_bind fun _ =>
      booked_of_aside ((stays_pure _).bind hfinish)
  · -- a write-behind write: memory now, and the distributed write scheduled
    exact hremember.booked_bind fun _ => (booked_scheduleWrite _ _ _).bind fun _ o' ho' =>
      ho' ▸ booked_of_aside ((stays_pure _).bind hfinish)

theorem booked_set (key : String) (serialized : Except CacheError ByteArray) (ttlMs : Option Nat)
    (strategy : WriteStrategy) :
    Booked c₀ (fun _ o' => o' = .caller none) (.caller none) (set key serialized ttlMs strategy) := by
  unfold set
  split
  · exact booked_of_aside ((aside_count _ fun _ => by rfl).bind fun _ => stays_pure _)
  · exact booked_setRaw _ _ _ _

end Act

section Callers

variable {c₀ : TieredCache}

theorem CacheCall.booked_act (c : CacheCall) :
    Act.Booked c₀ (fun _ o' => o' = .caller none) (.caller none) c.act := by
  cases c with
  | get key => exact Act.booked_of_aside ((Act.aside_getRaw key).bind fun _ => Act.stays_pure _)
  | contains key => exact Act.booked_of_aside ((Act.aside_contains key).bind fun _ => Act.stays_pure _)
  | set key value ttlMs strategy =>
    exact (Act.booked_setRaw key value ttlMs strategy).bind fun _ _ ho' => Act.booked_pure ho'
  | delete key => exact Act.booked_of_aside ((Act.aside_delete key).bind fun _ => Act.stays_pure _)
  | invalidate pattern =>
    exact Act.booked_of_aside ((Act.aside_invalidate pattern).bind fun _ => Act.stays_pure _)
  | sweep => exact Act.booked_of_aside (Act.aside_sweep.bind fun _ => Act.stays_pure _)
  | clearLocal => exact Act.booked_of_aside (Act.aside_clearLocal.bind fun _ => Act.stays_pure _)
  | flush => exact Act.booked_of_aside (Act.aside_flush.bind fun _ => Act.stays_pure _)

theorem Request.booked_act (r : Request) :
    Act.Booked c₀ (fun _ o' => o' = .caller none) (.caller none) r.act := by
  cases r with
  | call c => exact (CacheCall.booked_act c).bind fun _ _ ho' => Act.booked_pure ho'
  | get key sh =>
    exact Act.booked_of_aside ((Act.aside_getRaw key).bind fun found =>
      (Act.aside_readAs sh found).bind fun _ => Act.stays_pure _)
  | getOr key sh dflt =>
    exact Act.booked_of_aside ((Act.aside_getRaw key).bind fun found =>
      (Act.aside_readAs sh found).bind fun _ => Act.stays_pure _)
  | set key serialized ttlMs strategy =>
    exact (Act.booked_set key serialized ttlMs strategy).bind fun _ _ ho' => Act.booked_pure ho'
  | peek key => exact Act.booked_of_aside ((Act.aside_peekRaw key).bind fun _ => Act.stays_pure _)

theorem Request.booked_program :
    ∀ rs : List Request, Act.Booked c₀ (fun _ o' => o' = .caller none) (.caller none) (Request.program rs)
  | [] => Act.booked_pure rfl
  | r :: rs => by
    rw [Request.program]
    refine Act.booked_giveWay.bind fun _ o ho => ?_
    subst ho
    refine (booked_act r).bind fun _ o ho => ?_
    subst ho
    exact (booked_program rs).bind fun _ _ ho => Act.booked_pure ho

theorem Request.booked_caller (rs : List Request) :
    Act.Booked c₀ (fun _ o' => o' = .caller none) (.caller none) (Request.caller rs) :=
  (booked_program rs).bind fun _ _ ho' => Act.booked_pure ho'

end Callers

/-! ## The write-behind jobs -/

section Jobs

variable {c₀ : TieredCache}

theorem holds_writeBehindTail (key : String) (frame : ByteArray) (ttlMs t : Nat) :
    Stage.Holds Host.writeLog (writeShares c₀) (fun _ o' => ∃ ok, o' = .job t (.done ok))
      (.job t .inside) (Act.writeBehindTail key frame ttlMs t) := by
  unfold Act.writeBehindTail
  refine Stage.Holds.bind (Act.booked_of_aside (Act.aside_tierSet key frame ttlMs)) fun r o ho => ?_
  subst ho
  refine Stage.Holds.bind (holds_note fun p M hI => hI.leave r.toBool) fun _ o ho => ?_
  subst ho
  extract_lets finish
  -- the write ends back from its call, or with its failure counted
  have hfinish : ∀ ph ok, (WritePhase.done ok).trail t = ph.trail t ++ [.finished t] →
      .finished t ∉ ph.trail t → ∀ u, Stage.Holds Host.writeLog (writeShares c₀)
        (fun _ o' => ∃ ok, o' = .job t (.done ok)) (.job t ph) (finish u) :=
    fun ph ok hph hnot _ => (holds_note fun p M hI => hI.finish hph hnot).mono fun _ _ ho => ⟨ok, ho⟩
  cases r.toBool
  · exact Stage.Holds.bind (holds_note fun p M hI => hI.tally) fun _ o ho =>
      ho ▸ hfinish .counted false rfl (by simp [WritePhase.trail]) ()
  · exact hfinish (.back true) true rfl (by simp [WritePhase.trail]) ()

theorem holds_writeBehindJobNoted (key : String) (frame : ByteArray) (ttlMs t : Nat) :
    Stage.Holds Host.writeLog (writeShares c₀) (fun _ o' => ∃ ok, o' = .job t (.done ok))
      (.job t .queued) (Act.writeBehindJobNoted key frame ttlMs t) := by
  intro p M hI
  refine .wait (fun _ => .job t .queued) (fun _ _ hI _ => hI) fun p' M' hI' hready => ?_
  have hturn : p'.1.cache.writeBehind.serving = t ∧ 0 < p'.1.cache.writeBehind.permits := by
    simpa using hready
  have hI'' := hI'.enter hturn.1 hturn.2
  refine .write (.job t .inside) (keeps_idle fun M hI => hI.enter hturn.1 hturn.2) ?_
  rw [writeLog_takeJobs_idle hI''.idle]
  exact holds_writeBehindTail key frame ttlMs t _ _ hI''

theorem poised_launchNoting (j : Job) (hj : (writeShares c₀).Spawnable j) :
    Stage.Poised Host.writeLog (writeShares c₀) ((writeShares c₀).hold j) (Host.writeLog.launch j) := by
  cases j with
  | writeBehind key frame ttlMs t =>
    refine Stage.Holds.poised ((holds_writeBehindJobNoted key frame ttlMs t).mono fun _ o ho => ?_)
    obtain ⟨ok, rfl⟩ := ho
    exact ⟨ok, rfl⟩
  | warm => exact hj.elim
  | loop => exact hj.elim

end Jobs

/-! ## Every run keeps the books -/

theorem runs_flush {ω : Type} {L : Sharing Host Job ω} {o : ω} {s : Host} :
    Stage.Runs Host.stage L (fun _ o' s' => o' = o ∧ s'.cache.writeBehind.pending = 0) o s Act.flush :=
  .wait (fun _ => o) (fun _ _ hI _ => hI) fun _ _ _ hready => .done ⟨rfl, by simpa using hready⟩

section Crowd

variable {h₀ : Host} {fibers : List (Act Unit)}

-- Callers started from a cache with no write under way, beside an empty history.
theorem good_writeLog_start (hreq : h₀.requested = []) (hpending : h₀.cache.writeBehind.pending = 0)
    (hserving : h₀.cache.writeBehind.serving = h₀.cache.writeBehind.nextTicket)
    (hfibers : ∀ f ∈ fibers, Act.Booked h₀.cache (fun _ o' => o' = .caller none) (.caller none) f) :
    Crowd.Good Host.writeLog (writeShares h₀.cache) ⟨(h₀, []), fibers.map (Fiber.lift _)⟩ := by
  refine ⟨fibers.map fun _ => .caller none, ?_,
    ⟨hreq, WriteBooks.start _ hpending hserving, WriteTrails.start fun o ho => ?_⟩⟩
  · simp only [List.forall₂_map_left_iff, List.forall₂_map_right_iff]
    refine List.forall₂_same.2 fun f hf => Stage.Holds.poised ((hfibers f hf).mono fun _ o ho => ?_)
    subst ho
    rfl
  · simp only [Multiset.mem_coe, List.mem_map] at ho
    obtain ⟨_, _, rfl⟩ := ho
    rfl

theorem shadows_writeLog_start (hreq : h₀.requested = []) :
    Crowd.Shadows Host.stage (⟨(h₀, []), fibers.map (Fiber.lift _)⟩ : Crowd (Host × List WriteEvent))
      ⟨h₀, fibers⟩ := by
  refine ⟨rfl, ?_, ?_⟩
  · show (h₀.requested, { h₀ with requested := [] }) = ([], h₀)
    rw [← hreq]
  · simp only [List.forall₂_map_left_iff]
    exact List.forall₂_same.2 fun f _ => ⟨Fiber.Shadows.lift f, Fiber.sameStep_lift f⟩

end Crowd

/-- Over every run of callers making requests of the cache, with the write-behind jobs their writes
start running beside them in any order and the clock moving as it likes, started from a cache with
no write under way and no job asked for, the run is the shadow of a run with the history of the
writes beside it, along which the books agree with the history (`WriteBooks`): the pending count
is the number of tickets handed out whose write has not finished; the scheduled count grew by the
tickets handed out, and none is handed out in memory-only mode; the failed count grew by the
failures noted; the writes took their permits in the order of their tickets, and at most as many
are inside their call as there were permits at the start. A write counts a failure only after its
call failed, and a finished write took its permit, ended its call, counted a failure exactly when
the call failed, and finished, in that order. And a flush, whatever runs beside it, returns only
when no write is pending. -/
theorem write_behind_books_balance (h₀ : Host) (callers : List (List Request)) (c : Crowd Host)
    (hreq : h₀.requested = []) (hpending : h₀.cache.writeBehind.pending = 0)
    (hserving : h₀.cache.writeBehind.serving = h₀.cache.writeBehind.nextTicket)
    (hrun : Relation.ReflTransGen (Stage.Move Host.stage) ⟨h₀, callers.map Request.caller⟩ c) :
    (∃ C : Crowd (Host × List WriteEvent),
      Relation.ReflTransGen (Stage.Move Host.writeLog)
        ⟨(h₀, []), (callers.map Request.caller).map (Fiber.lift _)⟩ C ∧
      C.Shadows Host.stage c ∧ WriteBooks h₀.cache c.state.cache C.state.2 ∧
      (ticketsFrom h₀.cache.writeBehind.nextTicket c.state.cache.writeBehind.nextTicket).countP
        (WriteEvent.Inside C.state.2) ≤ h₀.cache.writeBehind.permits ∧
      (∀ t, .failed t ∈ C.state.2 → .left t false ∈ C.state.2) ∧
      ∀ t, .finished t ∈ C.state.2 → ∃ ok, WriteEvent.trail C.state.2 t =
        [.entered t, .left t ok] ++ (if ok then [] else [.failed t]) ++ [.finished t]) ∧
    ∀ (ω : Type) (L : Sharing Host Job ω) (o : ω) (s : Host),
      Stage.Runs Host.stage L (fun _ o' s' => o' = o ∧ s'.cache.writeBehind.pending = 0) o s Act.flush := by
  obtain ⟨C, hC, hsh⟩ := (shadows_writeLog_start hreq).reach writeLog_shadowable hrun
  -- every caller runs with the history beside it from any state the books hold in
  have hfibers : ∀ f ∈ callers.map Request.caller,
      Act.Booked h₀.cache (fun _ o' => o' = .caller none) (.caller none) f := by
    intro f hf
    obtain ⟨rs, -, rfl⟩ := List.mem_map.1 hf
    exact Request.booked_caller rs
  obtain ⟨_, -, hI⟩ := (good_writeLog_start hreq hpending hserving hfibers).reach poised_launchNoting
    (fun _ _ _ _ hI => ⟨hI.idle, hI.books, hI.trails⟩) hC
  have hstate : C.state.1 = c.state := hsh.1
  rw [← hstate]
  exact ⟨⟨C, hC, hsh, hI.books, hI.books.inside_le, fun _ ht => hI.trails.left_false_of_failed ht,
    fun _ ht => hI.trails.trail_of_finished ht⟩, fun _ _ _ _ => runs_flush⟩

/-- A write behind a key and a flush, as one caller makes them. -/
def behindThenFlush : List Request :=
  [.call (.set "a" "1".toUTF8 none .writeBehind), .call .flush]

/-- A cache over an empty distributed tier. -/
def behindHost : Host := { cache := TieredCache.create .lz4 {} true }

/-- The caller writes behind and waits in its flush, the job it started writes and ends, and the
flush returns. -/
def behindFlushed : Crowd Host :=
  (((⟨behindHost, [behindThenFlush].map Request.caller⟩ : Crowd Host).turn Host.stage 0 200).turn
    Host.stage 1 200).turn Host.stage 0 200

theorem writing_behind_from_rest_keeps_books :
    Relation.ReflTransGen (Stage.Move Host.stage) ⟨behindHost, [behindThenFlush].map Request.caller⟩
      behindFlushed ∧
    behindFlushed.fibers.map Fiber.ended = [true, true] ∧
    (∃ C : Crowd (Host × List WriteEvent),
      Relation.ReflTransGen (Stage.Move Host.writeLog)
        ⟨(behindHost, []), ([behindThenFlush].map Request.caller).map (Fiber.lift _)⟩ C ∧
      C.Shadows Host.stage behindFlushed ∧
      WriteBooks behindHost.cache behindFlushed.state.cache C.state.2 ∧
      (ticketsFrom behindHost.cache.writeBehind.nextTicket
          behindFlushed.state.cache.writeBehind.nextTicket).countP (WriteEvent.Inside C.state.2) ≤
        behindHost.cache.writeBehind.permits ∧
      (∀ t, .failed t ∈ C.state.2 → .left t false ∈ C.state.2) ∧
      ∀ t, .finished t ∈ C.state.2 → ∃ ok, WriteEvent.trail C.state.2 t =
        [.entered t, .left t ok] ++ (if ok then [] else [.failed t]) ++ [.finished t]) ∧
    ∀ (ω : Type) (L : Sharing Host Job ω) (o : ω) (s : Host),
      Stage.Runs Host.stage L (fun _ o' s' => o' = o ∧ s'.cache.writeBehind.pending = 0) o s Act.flush := by
  -- the caller's turn, the job's, and the caller's again
  have hrun : Relation.ReflTransGen (Stage.Move Host.stage)
      ⟨behindHost, [behindThenFlush].map Request.caller⟩ behindFlushed :=
    .tail (.tail (.single (Crowd.move_turn (by decide) (by decide +kernel)))
      (Crowd.move_turn (by decide +kernel) (by decide +kernel)))
      (Crowd.move_turn (by decide +kernel) (by decide +kernel))
  exact ⟨hrun, by decide +kernel, write_behind_books_balance behindHost [behindThenFlush] _ rfl rfl rfl hrun⟩

end TierCache
