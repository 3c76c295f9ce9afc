import TierCache.Proofs.WriteBehindBooks
import TierCache.Frame.Lz4Compress

/-!
# What leaves the service's lifecycle alone

Programs that leave the lifecycle, the readiness and the warming books alone (`Act.Still`), and a
caller's requests, which may schedule writes behind (`Act.Busy`).
-/

namespace TierCache

namespace Host

/-- A change that asks for no job, leaves the warming books, the lifecycle and the readiness as
they were, and lowers the pending writes behind if it moves them at all. -/
structure Still (h h' : Host) : Prop where
  calm : Calm h h'
  service : h'.service = h.service
  ready : h'.ready = h.ready
  pending : h'.cache.writeBehind.pending ≤ h.cache.writeBehind.pending

variable {h h' : Host}

theorem Still.of_eq (hreq : h'.requested = h.requested) (hw : h'.warmer = h.warmer)
    (hs : h'.service = h.service) (hr : h'.ready = h.ready)
    (hp : h'.cache.writeBehind = h.cache.writeBehind) : Still h h' :=
  ⟨Calm.of_eq hreq hw, hs, hr, hp ▸ le_refl _⟩

theorem Still.of_cache {c : TieredCache} (hc : c.writeBehind.pending ≤ h.cache.writeBehind.pending) :
    Still h { h with cache := c } :=
  ⟨Calm.of_eq rfl rfl, rfl, rfl, hc⟩

/-- A change that leaves the warming books, the lifecycle and the readiness as they were, and asks
only for write-behind jobs. -/
structure Busy (h h' : Host) : Prop where
  books : h'.warmer.map Warmer.books = h.warmer.map Warmer.books
  service : h'.service = h.service
  ready : h'.ready = h.ready
  jobs : ∃ js, h'.requested = h.requested ++ js ∧ ∀ j ∈ js, j.WritesBehind

theorem Still.busy (hs : Still h h') : Busy h h' :=
  ⟨hs.calm.2, hs.service, hs.ready, [], by simp [hs.calm.1], by simp⟩

end Host

namespace Act

variable {α β γ : Type}

/-- From any state, every change the program makes is still. -/
def Still (f : Act α) : Prop := Stays Host.Still f

/-- From any state, every change the program makes is busy. -/
def Busy (f : Act α) : Prop := Stays Host.Busy f

theorem Still.busy {f : Act α} (hf : Still f) : Busy f :=
  fun h => (hf h).mono fun _ _ hs => hs.busy

theorem still_changeCache {f : Nat → TieredCache → TieredCache}
    (hf : ∀ now c, (f now c).writeBehind.pending ≤ c.writeBehind.pending) : Still (changeCache f) :=
  stays_modify fun _ => .of_cache (hf _ _)

theorem still_onCache {f : Nat → TieredCache → α × TieredCache}
    (hf : ∀ now c, (f now c).2.writeBehind.pending ≤ c.writeBehind.pending) : Still (onCache f) :=
  stays_modifyGet fun _ => .of_cache (hf _ _)

theorem still_count (f : Metrics → Metrics) : Still (changeCache fun _ c => c.count f) :=
  still_changeCache fun _ _ => le_refl _

-- A change that leaves the write-behind books alone leaves the pending writes alone.
theorem still_changeCache_aside {f : Nat → TieredCache → TieredCache}
    (hf : ∀ now c, TieredCache.Aside c (f now c)) : Still (changeCache f) :=
  still_changeCache fun now c => (congrArg WriteBehind.pending (hf now c).1).le

theorem still_changeWarmer {f : Warmer → Warmer} (hf : ∀ w, (f w).books = w.books) :
    Still (changeWarmer f) := by
  refine stays_modify fun h => ⟨⟨rfl, ?_⟩, rfl, rfl, le_refl _⟩
  cases h.warmer <;> simp [hf]

theorem still_onSource (f : DataSource → α × DataSource) : Still (onSource f) :=
  stays_modifyGet fun _ => .of_eq rfl rfl rfl rfl rfl

theorem still_halt [Inhabited α] (msg : String) : Still (halt msg : Act α) :=
  fun _ => .write (.of_eq rfl rfl rfl rfl rfl) (Stays.wait (stays_pure _) _)

theorem still_now : Still Act.now := Stays.read fun _ => stays_pure _

theorem Stays.forIn {P : Host → Host → Prop} {xs : List γ} {b : β} {f : γ → β → Act (ForInStep β)}
    (hf : ∀ x b, Stays P (f x b)) : Stays P (forIn xs b f) :=
  Stage.Within.forIn fun x _ b => hf x b

/-! ## The tiers -/

section Cache

variable {P : Host → Host → Prop}

/-- A call to the distributed tier stays within any relation that every change of the cache leaving
the write-behind books alone satisfies: the breaker's verdict and the call's end change only the
tier and the counters. -/
theorem stays_callTier_of
    (hcache : ∀ h (c : TieredCache), c.writeBehind = h.cache.writeBehind → P h { h with cache := c })
    (call : BackendCall) : Stays P (callTier call) := by
  refine stays_callTier (fun h => ?_) (fun a h => ?_)
  · unfold startCall
    split
    · exact hcache h _ (by rfl)
    · exact hcache h _ (by rfl)
  · unfold endCall
    split
    · exact hcache h _ (by rfl)
    · exact hcache h _ (by rfl)

theorem stays_writeThrough
    (hcache : ∀ h (c : TieredCache), c.writeBehind = h.cache.writeBehind → P h { h with cache := c })
    (key : String) (v : ByteArray) (ttlMs : Nat) : Stays P (writeThrough key v ttlMs) := by
  refine stays_memoryOnly.bind fun memoryOnly => ?_
  split
  · exact stays_pure _
  · exact (stays_look _).bind fun _ => Stays.bind (f := tierSet _ _ _)
      ((stays_callTier_of hcache _).bind fun _ => stays_pure _) fun _ => stays_pure _

end Cache

theorem still_callTier (call : BackendCall) : Still (callTier call) :=
  stays_callTier_of (fun _ _ hc => .of_cache (congrArg WriteBehind.pending hc).le) call

theorem still_tierGet (key : String) : Still (tierGet key) :=
  (still_callTier _).bind fun _ => stays_pure _

theorem still_tierSet (key : String) (frame : ByteArray) (ttlMs : Nat) :
    Still (tierSet key frame ttlMs) :=
  (still_callTier _).bind fun _ => stays_pure _

theorem still_tierDelete (key : String) : Still (tierDelete key) :=
  (still_callTier _).bind fun _ => stays_pure _

theorem still_tierDeleteMatching (pattern : String) : Still (tierDeleteMatching pattern) := by
  unfold tierDeleteMatching
  split <;> exact (still_callTier _).bind fun _ => stays_pure _

theorem still_ping : Still ping := by
  refine stays_memoryOnly.bind fun memoryOnly => ?_
  split
  · exact stays_pure _
  · exact (still_callTier _).bind fun _ => stays_pure _

theorem still_lookup (key : String) : Still (lookup key) := by
  refine (still_onCache fun _ _ => by rfl).bind fun found => ?_
  split
  · exact (still_count _).bind fun _ => stays_pure _
  · refine stays_memoryOnly.bind fun memoryOnly => ?_
    split
    · exact stays_pure _
    · refine (still_tierGet key).bind fun r => ?_
      split
      · refine (stays_look _).bind fun decoded => ?_
        split
        · exact (still_changeCache fun _ _ => by rfl).bind fun _ => stays_pure _
        · exact (still_count _).bind fun _ => stays_pure _
      · exact stays_pure _

theorem still_getRaw (key : String) : Still (getRaw key) := by
  refine (still_lookup key).bind fun found => ?_
  dsimp only
  split
  · exact (still_count _).bind fun _ => (still_count _).bind fun _ => stays_pure _
  · exact (still_count _).bind fun _ => stays_pure _

theorem still_readAs (sh : Shape) (found : Option ByteArray) : Still (readAs sh found) := by
  unfold readAs
  split
  · exact stays_pure _
  · split
    · exact stays_pure _
    · exact (still_count _).bind fun _ => stays_pure _

section Gates

variable {P : Host → Host → Prop} (hcall : ∀ call, Stays P (callTier call))
  (hsource : ∀ h (src : DataSource), P h { h with source := src })
  (hpanic : ∀ h msg, P h { h with panic := some msg })

include hcall in
theorem stays_peekRaw (key : String) : Stays P (peekRaw key) := by
  refine (stays_look _).bind fun found => ?_
  split
  · exact stays_pure _
  · refine stays_memoryOnly.bind fun memoryOnly => ?_
    split
    · exact stays_pure _
    · refine ((hcall _).bind fun _ => stays_pure _).bind fun r => ?_
      split
      · exact stays_look _
      · exact stays_pure _

include hcall in
theorem stays_lastWarmed (pattern : String) : Stays P (lastWarmed pattern) :=
  (stays_peekRaw hcall _).bind fun _ => stays_pure _

include hsource hpanic in
theorem stays_evaluate (c : Condition) (now : Instant) : Stays P (evaluate c now) := by
  refine (stays_look _).bind fun result => ?_
  split
  · exact fun h => .write (hpanic h _) (Stays.wait (stays_pure _) _)
  · exact (stays_modify fun h => hsource h _).bind fun _ => stays_pure _

include hcall hsource hpanic in
/-- The gates stay within any relation that allows what they change: the distributed tier through
its calls, the data source, and the panic of a halt. -/
theorem stays_eligibility (r : Rule) (now : Instant) : Stays P (eligibility r now) := by
  refine (stays_lastWarmed hcall _).bind fun last => ?_
  extract_lets gates
  -- the conditions and the dependencies, checked on both branches of the marker's gate
  have hgates : ∀ u, Stays P (gates u) := by
    intro u
    refine (Stays.forIn fun c _ => (stays_evaluate hsource hpanic c now).bind fun _ => ?_).bind
      fun found => ?_
    · split <;> exact stays_pure _
    extract_lets
    split
    · exact stays_pure _
    · refine (Stays.forIn fun d _ => (stays_lastWarmed hcall d).bind fun _ => ?_).bind
        fun found => ?_
      · split <;> exact stays_pure _
      · extract_lets
        split <;> exact stays_pure _
  split
  · split
    · exact stays_pure _
    · exact hgates ()
  · exact hgates ()

end Gates

theorem still_peekRaw (key : String) : Still (peekRaw key) := stays_peekRaw still_callTier key

theorem still_contains (key : String) : Still (contains key) := by
  refine (stays_look _).bind fun here => ?_
  split
  · exact stays_pure _
  · refine stays_memoryOnly.bind fun memoryOnly => ?_
    split
    · exact stays_pure _
    · exact (still_tierGet key).bind fun r => by split <;> exact stays_pure _

theorem still_writeThrough (key : String) (v : ByteArray) (ttlMs : Nat) :
    Still (writeThrough key v ttlMs) :=
  stays_writeThrough (fun _ _ hc => .of_cache (congrArg WriteBehind.pending hc).le) key v ttlMs

theorem still_delete (key : String) : Still (delete key) := by
  unfold delete
  refine (still_changeCache fun _ _ => by rfl).bind fun _ => ?_
  refine stays_memoryOnly.bind fun memoryOnly => ?_
  extract_lets finish
  have hfinish : ∀ ok', Still (finish ok') := fun _ =>
    (still_changeCache fun _ _ => by rfl).bind fun _ => stays_pure _
  split
  · exact (stays_pure _).bind hfinish
  · exact (still_tierDelete key).bind fun _ => (stays_pure _).bind hfinish

theorem still_invalidate (pattern : String) : Still (invalidate pattern) := by
  unfold invalidate
  refine (still_onCache fun _ _ => by rfl).bind fun here => ?_
  refine stays_memoryOnly.bind fun memoryOnly => ?_
  extract_lets finish
  have hfinish : ∀ there, Still (finish there) := fun _ =>
    (still_changeCache fun _ _ => by rfl).bind fun _ => stays_pure _
  split
  · exact (stays_pure _).bind hfinish
  · exact (still_tierDeleteMatching pattern).bind fun _ => (stays_pure _).bind hfinish

theorem still_sweep : Still sweep := still_onCache fun _ _ => le_refl _

theorem still_clearLocal : Still clearLocal := still_changeCache fun _ _ => le_refl _

theorem still_flush : Still flush := stays_waitUntil _

/-! ## Writes -/

/-- A write stays within any relation that every change of the cache leaving the write-behind books
alone satisfies, and, for a write behind, that scheduling its distributed write does. -/
theorem stays_setRaw {P : Host → Host → Prop}
    (hcache : ∀ h (c : TieredCache), c.writeBehind = h.cache.writeBehind → P h { h with cache := c })
    (key : String) (v : ByteArray) (ttlMs : Option Nat) (strategy : WriteStrategy)
    (hbehind : strategy = .writeBehind → ∀ ttl, Stays P (scheduleWrite key v ttl)) :
    Stays P (setRaw key v ttlMs strategy) := by
  unfold setRaw
  refine (stays_look _).bind fun ttl => ?_
  extract_lets remember finish
  have hremember : Stays P remember := stays_modify fun h => hcache h _ (by rfl)
  -- once the tiers are written: the write is counted, and published if it worked
  have hfinish : ∀ ok, Stays P (finish ok) := by
    intro ok
    refine (stays_modify fun h => hcache h _ (by rfl)).bind fun _ => ?_
    split
    · exact (stays_modify fun h => hcache h _
        ((TieredCache.aside_publish _ _).trans (TieredCache.aside_offerTrigger _ _)).1).bind
          fun _ => stays_pure _
    · exact stays_pure _
  split
  · exact hremember.bind fun _ => (stays_writeThrough hcache _ _ _).bind hfinish
  · exact (stays_writeThrough hcache _ _ _).bind fun ok => hremember.bind fun _ =>
      (stays_pure _).bind hfinish
  · exact hremember.bind fun _ => (hbehind rfl ttl).bind fun _ => (stays_pure _).bind hfinish

-- A write that is not behind keeps its distributed write in its own flow.
theorem still_setRaw (key : String) (v : ByteArray) (ttlMs : Option Nat) {strategy : WriteStrategy}
    (hs : strategy ≠ .writeBehind) : Still (setRaw key v ttlMs strategy) :=
  stays_setRaw (fun _ _ hc => .of_cache (congrArg WriteBehind.pending hc).le) key v ttlMs strategy
    fun h => absurd h hs

theorem still_setJson_cacheAside (key : String) (v : Json) (ttlMs : Option Nat) :
    Still (setJson key v ttlMs .cacheAside) :=
  still_setRaw _ _ _ (by decide)

/-! ## Gates, markers, refreshes and analysis -/

theorem still_lastWarmed (pattern : String) : Still (lastWarmed pattern) :=
  stays_lastWarmed still_callTier pattern

theorem still_markWarmed (pattern : String) (time : Instant) : Still (markWarmed pattern time) :=
  (stays_look _).bind fun _ => (still_setJson_cacheAside _ _ _).bind fun _ => stays_pure _

theorem still_query : Still query := still_onSource _

theorem still_evaluate (c : Condition) (now : Instant) : Still (evaluate c now) :=
  stays_evaluate (fun _ _ => .of_eq rfl rfl rfl rfl rfl) (fun _ _ => .of_eq rfl rfl rfl rfl rfl) c now

theorem still_eligibility (r : Rule) (now : Instant) : Still (eligibility r now) :=
  stays_eligibility still_callTier (fun _ _ => .of_eq rfl rfl rfl rfl rfl)
    (fun _ _ => .of_eq rfl rfl rfl rfl rfl) r now

theorem still_activeUsers (now : Instant) : Still (activeUsers now) := by
  unfold activeUsers
  split
  · exact stays_pure _
  · refine still_query.bind fun answer => ?_
    split
    · exact stays_pure _
    · exact (stays_look _).bind fun _ => stays_pure _

theorem still_warmUser (user : String) : Still (warmUser user) := by
  refine still_query.bind fun answer => ?_
  split
  · exact stays_pure _
  · refine (stays_look _).bind fun snapshot => ?_
    split
    · exact stays_pure _
    · exact (still_setJson_cacheAside _ _ _).bind fun _ => (still_setJson_cacheAside _ _ _).bind
        fun _ => (still_setJson_cacheAside _ _ _).bind fun _ => stays_pure _

theorem still_warmListedUser (user : String) : Still (warmListedUser user) :=
  (still_warmUser user).bind fun r => by split <;> exact stays_pure _

theorem still_runScript (r : Rule) (s : Script) (now : Instant) (trigger : Option String) :
    Still (runScript r s now trigger) := by
  refine (still_changeWarmer (Warmer.books_countCall · _)).bind fun _ => ?_
  split
  · exact stays_pure _
  · refine (stays_sleep _).bind fun _ => ?_
    refine (Stays.forIn fun _ _ => (still_setJson_cacheAside _ _ _).bind fun _ => stays_pure _).bind
      fun _ => ?_
    split <;> exact stays_pure _

theorem still_runRule (r : Rule) (now : Instant) (trigger : Option String) :
    Still (runRule r now trigger) := by
  unfold runRule
  split
  · exact still_runScript _ _ _ _
  · refine (still_activeUsers now).bind fun users => ?_
    split
    · exact stays_pure _
    · exact stays_pure _
    · exact (still_setJson_cacheAside _ _ _).bind fun _ => stays_pure _
  · refine still_query.bind fun answer => ?_
    split
    · exact stays_pure _
    · refine (stays_look _).bind fun records => ?_
      exact (Stays.forIn fun _ _ => (still_setJson_cacheAside _ _ _).bind fun _ => stays_pure _).bind
        fun _ => stays_pure _
  · refine (still_getRaw _).bind fun cached => ?_
    extract_lets +lift withUsers withListed
    -- the cached list of users, else the source's, then the users warmed eight at a time
    have hUsers : ∀ users, Still (withUsers users) := by
      intro users
      simp only [withUsers]
      split
      · exact stays_pure _
      · exact stays_pure _
      · exact (Stays.buffered still_warmListedUser).bind fun _ => stays_pure _
    have hListed : ∀ listed, Still (withListed listed) := by
      intro listed
      simp only [withListed]
      split
      · exact (stays_pure _).bind fun _ => hUsers _
      · refine (still_activeUsers now).bind fun found => ?_
        split <;> exact (stays_pure _).bind fun _ => hUsers _
    split
    · exact (stays_pure _).bind fun _ => hListed _
    · split
      · exact (stays_pure _).bind fun _ => hListed _
      · exact (still_count _).bind fun _ => (stays_pure _).bind fun _ => hListed _

-- An analysis pass changes the access patterns, the predictor and the counters of the scheduler,
-- none of its books.
theorem still_analyze (now : Instant) : Still (analyze now) := by
  unfold analyze
  have hwarmer : ∀ (h : Host) {w w' : Warmer}, h.warmer = some w → w'.books = w.books →
      Host.Still h { h with warmer := some w' } := fun h w w' hw hb =>
    ⟨⟨rfl, by simp [hw, hb]⟩, rfl, rfl, le_refl _⟩
  refine (still_changeWarmer fun w => by simp).bind fun _ => ?_
  extract_lets +lift warmed₀ _ afterSeen
  rename_i afterHalt
  -- the pruning, the training, and a warm-up per predicted user
  have hSeen : ∀ seen, Still (afterSeen seen) := by
    intro seen
    simp -zeta only [afterSeen]
    extract_lets afterPruned
    have hPruned : ∀ pruned, Still (afterPruned pruned) := by
      intro pruned
      refine Stays.bind (stays_modifyGet fun h => ?_) fun trained => ?_
      · split
        · exact .of_eq rfl rfl rfl rfl rfl
        · split
          · exact hwarmer h ‹_› (by rfl)
          · exact .of_eq rfl rfl rfl rfl rfl
      refine (stays_look _).bind fun predicted => ?_
      refine (Stays.forIn fun u _ => (still_warmUser u).bind fun _ => ?_).bind fun _ => ?_
      · split <;> exact stays_pure _
      · exact (still_changeWarmer fun w => by simp).bind fun _ => stays_pure _
    refine (stays_look _).bind fun pruning => ?_
    split
    · exact (still_halt _).bind hPruned
    · exact (still_changeWarmer fun w => by rfl).bind fun _ => (stays_pure _).bind hPruned
    · exact (stays_pure _).bind hPruned
  -- the refresh of the access patterns from the source
  have hHalt : ∀ u, Still (afterHalt u) := by
    intro u
    refine still_query.bind fun answer => ?_
    split
    · exact (stays_pure _).bind hSeen
    · refine Stays.bind (stays_modifyGet fun h => ?_) hSeen
      split
      · exact .of_eq rfl rfl rfl rfl rfl
      · split
        · exact hwarmer h ‹_› (by rfl)
        · exact .of_eq rfl rfl rfl rfl rfl
  split
  · exact (still_halt _).bind hHalt
  · exact hHalt ()

/-! ## The write-behind jobs -/

-- A write-behind job moves only the write-behind books and the tier, and its end lowers the
-- pending writes.
theorem still_writeBehindJob (key : String) (frame : ByteArray) (ttlMs ticket : Nat) :
    Still (writeBehindJob key frame ttlMs ticket) := by
  refine (stays_waitUntil _).bind fun _ => (still_changeCache fun _ _ => by rfl).bind fun _ => ?_
  refine (still_tierSet _ _ _).bind fun r => (still_changeCache fun _ _ => by rfl).bind fun _ => ?_
  extract_lets finish
  have hfinish : ∀ u, Still (finish u) := fun _ =>
    still_changeCache fun _ c => Nat.sub_le c.writeBehind.pending 1
  split
  · exact (still_count _).bind hfinish
  · exact hfinish ()

/-! ## Requests -/

-- Scheduling a write behind moves the write-behind books and asks for one write-behind job.
theorem busy_scheduleWrite (key : String) (v : ByteArray) (ttlMs : Nat) :
    Busy (scheduleWrite key v ttlMs) := by
  unfold scheduleWrite
  refine stays_memoryOnly.bind fun memoryOnly => ?_
  split
  · exact stays_pure _
  · refine (stays_modifyGet fun h => ⟨rfl, rfl, rfl, [], by simp, by simp⟩).bind fun p => ?_
    obtain ⟨frame, ticket⟩ := p
    exact stays_modify fun h => ⟨rfl, rfl, rfl, [_], rfl, by simp [Job.WritesBehind]⟩

theorem busy_setRaw (key : String) (v : ByteArray) (ttlMs : Option Nat) (strategy : WriteStrategy) :
    Busy (setRaw key v ttlMs strategy) :=
  stays_setRaw (fun _ _ _ => ⟨rfl, rfl, rfl, [], by simp, by simp⟩) key v ttlMs strategy
    fun _ _ => busy_scheduleWrite _ _ _

theorem busy_set (key : String) (serialized : Except CacheError ByteArray) (ttlMs : Option Nat)
    (strategy : WriteStrategy) : Busy (set key serialized ttlMs strategy) := by
  unfold set
  split
  · exact Still.busy ((still_count _).bind fun _ => stays_pure _)
  · exact busy_setRaw _ _ _ _

end Act

theorem CacheCall.busy_act (c : CacheCall) : Act.Busy c.act := by
  cases c with
  | get key => exact Act.Still.busy ((Act.still_getRaw key).bind fun _ => Act.stays_pure _)
  | contains key => exact Act.Still.busy ((Act.still_contains key).bind fun _ => Act.stays_pure _)
  | set key value ttlMs strategy => exact (Act.busy_setRaw _ _ _ _).bind fun _ => Act.stays_pure _
  | delete key => exact Act.Still.busy ((Act.still_delete key).bind fun _ => Act.stays_pure _)
  | invalidate pattern =>
    exact Act.Still.busy ((Act.still_invalidate pattern).bind fun _ => Act.stays_pure _)
  | sweep => exact Act.Still.busy (Act.still_sweep.bind fun _ => Act.stays_pure _)
  | clearLocal => exact Act.Still.busy (Act.still_clearLocal.bind fun _ => Act.stays_pure _)
  | flush => exact Act.Still.busy (Act.still_flush.bind fun _ => Act.stays_pure _)

theorem Request.busy_act (r : Request) : Act.Busy r.act := by
  cases r with
  | call c => exact c.busy_act.bind fun _ => Act.stays_pure _
  | get key sh =>
    exact Act.Still.busy ((Act.still_getRaw key).bind fun found => (Act.still_readAs sh found).bind
      fun _ => Act.stays_pure _)
  | getOr key sh dflt =>
    exact Act.Still.busy ((Act.still_getRaw key).bind fun found => (Act.still_readAs sh found).bind
      fun _ => Act.stays_pure _)
  | set key serialized ttlMs strategy => exact (Act.busy_set _ _ _ _).bind fun _ => Act.stays_pure _
  | peek key => exact Act.Still.busy ((Act.still_peekRaw key).bind fun _ => Act.stays_pure _)

end TierCache
