import Mathlib
import TierCache.Proofs.MirroredTier
import TierCache.Frame.Lz4Compress

/-!
# What the distributed tier holds once the write-behind writes are flushed

Main statement: `flushed_tier_reflects_last_changes`, for runs that flush each write-behind set
before the key's next change (`Separated`). Without that, a write behind may land after a later
change (`write_behind_lands_after_later_set`).
-/

namespace TierCache

/-! ## The calls a log lists -/

/-- Fibers that share nothing: the invariant holds always. -/
def freeShares : Sharing Host Job Unit := ⟨fun _ _ => True, fun _ => (), fun _ => True, fun _ => True⟩

theorem runs_free {α : Type} (f : Act α) (s : Host) :
    Stage.Runs Host.stage freeShares (fun _ _ _ => True) () s f := by
  induction f generalizing s with
  | done a => exact .done trivial
  | read k ih => exact .read (ih s s)
  | write g k ih => exact .write () (fun _ _ => ⟨fun _ _ => trivial, trivial⟩) (ih _)
  | wait d r k ih => exact .wait (fun _ => ()) (fun _ _ _ _ => trivial) fun s' _ _ _ => ih s'
  | pass k ih => exact .pass fun s' _ _ => ih s'

namespace CacheCall

theorem runs_program_calls : ∀ (cs : List CacheCall) (s : Host),
    Stage.Runs Host.stage freeShares (fun log _ _ => log.map (·.call) = cs) () s (program cs)
  | [], _ => .done rfl
  | c :: cs, _ => .pass fun s _ _ => .read <| (runs_free c.act s).bind fun _ _ s' _ =>
      .read <| (runs_program_calls cs s').bind fun _ _ _ hrest => .done (by simp [hrest])

-- The log of a caller's run lists the calls it made, in order.
theorem calls_of_ends {calls : List CacheCall} {h h' : Host} {log : List CallRecord}
    (hrun : Host.stage.Ends h (program calls) log h') : log.map (·.call) = calls := by
  have hjobs : ∀ j, freeShares.Spawnable j →
      Host.stage.Poised freeShares (freeShares.hold j) (Host.stage.launch j) :=
    fun j _ s _ _ => runs_free _ s
  obtain ⟨_, _, hlog, -⟩ := Stage.Runs.ends hjobs (fun _ _ _ _ _ => trivial)
    (fun s _ _ => runs_program_calls calls s) trivial hrun
  exact hlog

/-! ## The last change of each key -/

/-- Whether a call changes what the distributed tier holds for a key: a set or removal of the key,
or an invalidation that takes it in. -/
def changes : CacheCall → String → Bool
  | set key .., k => k == key
  | delete key, k => k == key
  | invalidate pattern, k => invalidates pattern k
  | _, _ => false

end CacheCall

namespace CallRecord

/-- The change a call of the log made of a key: a set, with the default time to live `dflt` when
it names none, begun when the call began; or a removal. -/
def change (dflt : Nat) (r : CallRecord) (k : String) : Option Change :=
  match r.call with
  | .set key value ttlMs _ => if k = key then some (.stores value (ttlMs.getD dflt) r.start) else none
  | .delete key => if k = key then some .removes else none
  | .invalidate pattern => if invalidates pattern k then some .removes else none
  | _ => none

end CallRecord

/-- The last change the log made of a key, if it made one. -/
def lastChange (dflt : Nat) (log : List CallRecord) (k : String) : Option Change :=
  log.foldl (fun last r => (r.change dflt k).or last) none

theorem lastChange_append (dflt : Nat) (D : List CallRecord) (r : CallRecord) (k : String) :
    lastChange dflt (D ++ [r]) k = (r.change dflt k).or (lastChange dflt D k) := by
  simp [lastChange, List.foldl_append]

/-- A write-behind set of `k` among the calls has no flush after it. -/
def Unflushed (calls : List CacheCall) (k : String) : Prop :=
  ∃ pre value ttlMs post, calls = pre ++ .set k value ttlMs .writeBehind :: post ∧ .flush ∉ post

/-- A call that changes a key comes after a flush of every write-behind set of that key before
it. -/
def Separated (past : List CacheCall) (c : CacheCall) : Prop :=
  ∀ k, c.changes k → ¬ Unflushed past k

theorem Unflushed.snoc {calls : List CacheCall} {k : String} (h : Unflushed calls k)
    {c : CacheCall} (hc : c ≠ .flush) : Unflushed (calls ++ [c]) k := by
  obtain ⟨pre, value, ttlMs, post, rfl, hpost⟩ := h
  refine ⟨pre, value, ttlMs, post ++ [c], by simp, ?_⟩
  simp [hpost, Ne.symm hc]

theorem unflushed_writeBehind (calls : List CacheCall) (k : String) (value : ByteArray)
    (ttlMs : Option Nat) : Unflushed (calls ++ [.set k value ttlMs .writeBehind]) k :=
  ⟨calls, value, ttlMs, [], rfl, List.not_mem_nil⟩

-- A flush leaves no write-behind set unflushed.
theorem not_unflushed_flush (calls : List CacheCall) (k : String) :
    ¬ Unflushed (calls ++ [.flush]) k := by
  rintro ⟨pre, value, ttlMs, post, hcalls, hpost⟩
  have hlast : (pre ++ .set k value ttlMs .writeBehind :: post).getLast? = some .flush := by
    rw [← hcalls]
    simp
  rw [List.getLast?_append_of_ne_nil _ (List.cons_ne_nil _ _)] at hlast
  rcases List.mem_cons.1 (List.mem_of_getLast? hlast) with heq | hmem
  · cases heq
  · exact hpost hmem

theorem obeys_append_flush : ∀ (past calls : List CacheCall),
    CacheCall.Obeys Separated past calls → CacheCall.Obeys Separated past (calls ++ [.flush])
  | _, [], _ => ⟨fun _ hk => by simp [CacheCall.changes] at hk, trivial⟩
  | past, c :: calls, ⟨hc, hcalls⟩ => ⟨hc, obeys_append_flush (past ++ [c]) calls hcalls⟩

/-! ## The caller's ledger accounts for its log -/

/-- The caller's ledger accounts for its log: its last changes are the log's, what it holds
unflushed is unflushed in the log, and it holds no count of pending writes. -/
def Accounts (dflt : Nat) (D : List CallRecord) : Part → Prop
  | .caller l => l.last = lastChange dflt D ∧ (∀ k, l.unflushed k → Unflushed (D.map (·.call)) k) ∧
      l.credit = 0
  | .job .. => False

section Log

variable {lz : BlockCodec} {comp : Compression} {dflt : Nat} {D : List CallRecord} {l : Ledger}

-- A call that changes no key and is no flush leaves the ledger accounting for the log.
theorem Accounts.other (hD : Accounts dflt D (.caller l)) {r : CallRecord}
    (hchange : ∀ k, r.change dflt k = none) (hflush : r.call ≠ .flush) :
    Accounts dflt (D ++ [r]) (.caller l) := by
  obtain ⟨hlast, hun, hcredit⟩ := hD
  refine ⟨?_, fun k hk => ?_, hcredit⟩
  · funext k
    rw [hlast, lastChange_append, hchange]
    rfl
  · rw [List.map_append, List.map_singleton]
    exact (hun k hk).snoc hflush

theorem accounts_set (hD : Accounts dflt D (.caller l)) {key : String} {value : ByteArray}
    {ttlMs : Option Nat} {strategy : WriteStrategy} {start : Nat} {answer : CallAnswer} {stop : Nat}
    {l' : Ledger}
    (hlast : l'.last = Function.update l.last key (some (.stores value (ttlMs.getD dflt) start)))
    (hun : ∀ k, l'.unflushed k → l.unflushed k ∨ strategy = .writeBehind ∧ k = key)
    (hcredit : l'.credit = l.credit) :
    Accounts dflt (D ++ [⟨.set key value ttlMs strategy, start, answer, stop⟩]) (.caller l') := by
  obtain ⟨hlast₀, hun₀, hcredit₀⟩ := hD
  refine ⟨?_, fun k hk => ?_, hcredit.trans hcredit₀⟩
  · funext k
    rw [hlast, lastChange_append, ← hlast₀, Function.update_apply]
    by_cases hk : k = key <;> simp [CallRecord.change, hk]
  · rw [List.map_append, List.map_singleton]
    rcases hun k hk with hk | ⟨rfl, rfl⟩
    · exact (hun₀ k hk).snoc nofun
    · exact unflushed_writeBehind _ _ _ _

theorem accounts_removal (hD : Accounts dflt D (.caller l)) {r : CallRecord}
    {gone : String → Prop} [DecidablePred gone]
    (hchange : ∀ k, r.change dflt k = if gone k then some .removes else none)
    (hflush : r.call ≠ .flush) :
    Accounts dflt (D ++ [r])
      (.caller { l with last := fun k => if gone k then some .removes else l.last k }) := by
  obtain ⟨hlast, hun, hcredit⟩ := hD
  refine ⟨?_, fun k hk => ?_, hcredit⟩
  · funext k
    rw [lastChange_append, hchange, ← hlast]
    by_cases hk : gone k <;> simp [hk]
  · rw [List.map_append, List.map_singleton]
    exact (hun k hk).snoc hflush

/-- A call made where the caller's ledger accounts for its log, and that changes no key with a
write-behind set unflushed before it, ends with the ledger accounting for the log with the call
added. -/
theorem Accounts.runs_call_caller (hD : Accounts dflt D (.caller l)) {c : CacheCall}
    (hsep : Separated (D.map (·.call)) c) {s : Host} {M : Multiset Part}
    (hI : Mirrored lz comp dflt s (.caller l ::ₘ M)) :
    Stage.Runs Host.stage (mirrorShares lz comp dflt)
      (fun a o' s' => Accounts dflt (D ++ [⟨c, s.clock, a, s'.clock⟩]) o') (.caller l) s c.act := by
  have hm := mirrored_caller.1 hI
  -- a key the call changes has no unflushed write-behind set, so the ledger holds it unflushed neither
  have hfree : ∀ k, c.changes k → ¬ l.unflushed k := fun k hk hun => hsep k hk (hD.2.1 k hun)
  cases c with
  | get key =>
    refine (Mirrored.runs_getRaw hI key).bind fun _ o' _ ⟨ho', _⟩ => .done ?_
    subst o'
    exact hD.other (fun _ => rfl) nofun
  | contains key =>
    refine (Mirrored.runs_contains hI key).bind fun _ o' _ ⟨ho', _⟩ => .done ?_
    subst o'
    exact hD.other (fun _ => rfl) nofun
  | set key value ttlMs strategy =>
    refine (Mirrored.runs_setRaw hm (hfree key (by simp [CacheCall.changes])) value ttlMs
      strategy).bind fun _ o' _ ⟨l', ho', hlast, hun, hcredit, _⟩ => .done ?_
    subst o'
    exact accounts_set hD hlast hun hcredit
  | delete key =>
    refine (Mirrored.runs_delete hm (hfree key (by simp [CacheCall.changes]))).bind
      fun _ o' _ ⟨ho', _⟩ => .done ?_
    subst o'
    exact accounts_removal hD (fun k => rfl) nofun
  | invalidate pattern =>
    refine (Mirrored.runs_invalidate hm fun k hk => hfree k hk).bind
      fun _ o' _ ⟨ho', _⟩ => .done ?_
    subst o'
    exact accounts_removal hD (fun k => rfl) nofun
  | sweep =>
    unfold CacheCall.act Act.sweep
    refine (Mirrored.runs_onCache hI fun _ c => TieredCache.beside_onMemory c _).bind
      fun _ o' _ ⟨ho', _⟩ => .done ?_
    subst o'
    exact hD.other (fun _ => rfl) nofun
  | clearLocal =>
    unfold CacheCall.act Act.clearLocal
    refine (Mirrored.runs_beside hI fun _ c => TieredCache.beside_onMemory c _).bind
      fun _ o' _ ⟨ho', _⟩ => .done ?_
    subst o'
    exact hD.other (fun _ => rfl) nofun
  | flush =>
    refine Mirrored.runs_flush.bind fun _ o' _ ⟨ho', _⟩ => .done ?_
    subst o'
    obtain ⟨hlast, -, hcredit⟩ := hD
    refine ⟨?_, fun _ hk => hk.elim, hcredit⟩
    funext k
    rw [lastChange_append, ← hlast]
    rfl

theorem Accounts.runs_call {o : Part} (hD : Accounts dflt D o) {c : CacheCall}
    (hsep : Separated (D.map (·.call)) c) {s : Host} {M : Multiset Part}
    (hI : Mirrored lz comp dflt s (o ::ₘ M)) :
    Stage.Runs Host.stage (mirrorShares lz comp dflt)
      (fun a o' s' => Accounts dflt (D ++ [⟨c, s.clock, a, s'.clock⟩]) o') o s c.act := by
  cases o with
  | job => exact hD.elim
  | caller l => exact hD.runs_call_caller hsep hI


end Log

/-- Over a tier that answers every call, in any run of a caller beside the write-behind writes it
starts, with the clock moving as it likes, in which every write-behind set of a key is flushed
before the next change of that key: once a last flush has returned, each key the log changed shows
its last change. The tier holds the frame of the key's last set, expiring no sooner than that
set's time to live from when it began, or nothing once that time has run out; and nothing after a
removal. -/
theorem flushed_tier_reflects_last_changes {h h' : Host} {d : DistributedTier}
    (hd : h.cache.distributed = some d) (hans : d.Answering) (hjobs : h.requested = [])
    (calls : List CacheCall) (hsep : CacheCall.Obeys Separated [] calls) {log : List CallRecord}
    (hrun : Host.stage.Ends h (CacheCall.program (calls ++ [.flush])) log h') :
    ∃ d', h'.cache.distributed = some d' ∧ ∀ k c, lastChange h.cache.defaultTtlMs log k = some c →
      Reflects h.cache.codec h.cache.compression h'.clock c (d'.backend.store.lookup k) := by
  -- the caller's ledger accounts for its log all along
  have hcaller : ∀ s M, Mirrored h.cache.codec h.cache.compression h.cache.defaultTtlMs s
      (.caller ⟨fun _ => none, fun _ => False, 0, h.clock⟩ ::ₘ M) →
      Stage.Runs Host.stage (mirrorShares h.cache.codec h.cache.compression h.cache.defaultTtlMs)
        (fun log o _ => Accounts h.cache.defaultTtlMs ([] ++ log) o)
        (.caller ⟨fun _ => none, fun _ => False, 0, h.clock⟩) s
        (CacheCall.program (calls ++ [.flush])) :=
    fun s _ _ => CacheCall.runs_program (Accounts h.cache.defaultTtlMs) Separated
      (fun _ _ _ hD hc _ _ hI => hD.runs_call hc hI)
      (calls ++ [CacheCall.flush]) [] (.caller ⟨fun _ => none, fun _ => False, 0, h.clock⟩)
      ⟨rfl, fun _ hk => hk.elim, rfl⟩ (obeys_append_flush [] calls hsep) s
  obtain ⟨o', S, hacc, hI'⟩ := Stage.Runs.ends Mirrored.poised_jobs
    (fun _ _ _ ht hI => hI.tick ht) hcaller (Mirrored.start hd hans hjobs) hrun
  cases o' with
  | job => exact hacc.elim
  | caller l =>
    obtain ⟨hlast, hun, -⟩ := hacc
    have hm := mirrored_caller.1 hI'
    obtain ⟨d', hd', -, hmir⟩ := hm.mirrors
    refine ⟨d', hd', fun k c hc => hmir k c (by simpa [hlast] using hc) ?_⟩
    -- a waiting job's key is unflushed, and nothing is unflushed once the last flush returned
    rintro ⟨f, t, hjob⟩
    have hflushed := hun k (hm.queued k f t hjob).1
    rw [List.nil_append, CacheCall.calls_of_ends hrun] at hflushed
    exact not_unflushed_flush calls k hflushed


/-- A write-behind set, flushed: the tier shows it. -/
theorem flushed_write_behind_shows_set :
    ∃ h', Host.stage.Ends { cache := TieredCache.create .lz4 {} true }
        (CacheCall.program ([.set "k" "7".toUTF8 none .writeBehind] ++ [.flush]))
        [⟨.set "k" "7".toUTF8 none .writeBehind, 0, .flag true, 0⟩, ⟨.flush, 0, .done, 0⟩] h' ∧
      ∃ d', h'.cache.distributed = some d' ∧ ∀ k c,
        lastChange (({} : CacheConfig).defaultTtlSecs * 1000)
          [⟨.set "k" "7".toUTF8 none .writeBehind, 0, .flag true, 0⟩, ⟨.flush, 0, .done, 0⟩] k = some c →
        Reflects .lz4 ({} : CacheConfig).compression h'.clock c (d'.backend.store.lookup k) :=
  -- the run: the set, its job's write, and the flush
  Exists.imp (fun h' (hrun : Host.stage.Ends _ _ _ h') =>
      ⟨hrun, flushed_tier_reflects_last_changes rfl (DistributedTier.answering_create _ _ _) rfl
        [.set "k" "7".toUTF8 none .writeBehind]
        ⟨fun _ _ ⟨_, _, _, _, hpre, _⟩ => by simp at hpre, trivial⟩ hrun⟩)
    ⟨_, Scene.ends_play 100 [.main, .fiber 0, .main] (by decide) (by decide)⟩

/-- A write-behind set of a key followed by a cache-aside set of it, then a flush: the job of the
first set writes after the second set, and the tier holds the first set's frame, not that of the
key's last set. -/
theorem write_behind_lands_after_later_set :
    ∃ h', Host.stage.Ends { cache := TieredCache.create .lz4 {} true }
        (CacheCall.program [.set "k" "1".toUTF8 none .writeBehind, .set "k" "2".toUTF8 none .cacheAside,
          .flush])
        [⟨.set "k" "1".toUTF8 none .writeBehind, 0, .flag true, 0⟩,
          ⟨.set "k" "2".toUTF8 none .cacheAside, 0, .flag true, 0⟩, ⟨.flush, 0, .done, 0⟩] h' ∧
      lastChange (({} : CacheConfig).defaultTtlSecs * 1000)
          [⟨.set "k" "1".toUTF8 none .writeBehind, 0, .flag true, 0⟩,
            ⟨.set "k" "2".toUTF8 none .cacheAside, 0, .flag true, 0⟩, ⟨.flush, 0, .done, 0⟩] "k" =
        some (.stores "2".toUTF8 (({} : CacheConfig).defaultTtlSecs * 1000) 0) ∧
      h'.cache.distributed.map (·.backend.raw "k") =
        some (some (Frame.encode .lz4 ({} : CacheConfig).compression "1".toUTF8).2) ∧
      h'.cache.distributed.map (·.backend.raw "k") ≠
        some (some (Frame.encode .lz4 ({} : CacheConfig).compression "2".toUTF8).2) :=
  -- the run: the first set, the second set, the first set's job, and the flush
  ⟨_, Scene.ends_play 100 [.main, .main, .fiber 0, .main] (by decide) (by decide), by decide, by decide,
    by decide⟩

end TierCache
