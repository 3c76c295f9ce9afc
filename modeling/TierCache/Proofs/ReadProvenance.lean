import TierCache.Proofs.IssuedValues
import TierCache.Frame.Lz4Compress

/-!
# Where a read's value comes from

Main statement: `read_value_was_written`. A value read back from the distributed tier is kept in
memory with the default time to live (`default_ttl_outlives_written_ttl`).
-/

namespace TierCache

namespace CallRecord

/-- The set a call made, as its caller issued it: with the default time to live `dflt` when it
names none, at the clock when the call began. -/
def issue (dflt : Nat) (r : CallRecord) : Option Issue :=
  match r.call with
  | .set key value ttlMs _ => some ⟨key, value, ttlMs.getD dflt, r.start⟩
  | _ => none

end CallRecord

/-- The sets a log made, in order. -/
def issuesOf (dflt : Nat) (log : List CallRecord) : List Issue := log.filterMap (·.issue dflt)

/-- Each value a read of the log answered was written for its key by a set earlier in the log:
it is that set's value or what its frame decodes to. Without a distributed tier it is the value
itself, and the read returned before the set's time to live (`dflt` if it named none) ran out,
counted from when the set began. -/
def WrittenBefore (lz : BlockCodec) (comp : Compression) (dflt : Nat) (memOnly : Bool) (log : List CallRecord) :
    Prop :=
  ∀ pre r post, log = pre ++ r :: post → ∀ key v, r.call = .get key → r.answer = .found (some v) →
    ∃ w ∈ pre, ∃ value ttlMs strategy, w.call = .set key value ttlMs strategy ∧
      (value = v ∨ Frame.decode lz (Frame.encode lz comp value).2 = .ok v) ∧
      (memOnly = true → value = v ∧ r.stop < w.start + max (ttlMs.getD dflt) 1)

section Log

variable {lz : BlockCodec} {comp : Compression} {dflt : Nat} {memOnly : Bool} {D : List CallRecord}

theorem issuesOf_append (D : List CallRecord) (r : CallRecord) :
    issuesOf dflt (D ++ [r]) = issuesOf dflt D ++ (r.issue dflt).toList := by
  cases h : r.issue dflt <;> simp [issuesOf, h]

-- A set the log made is a call of the log, with the time to live it took and the clock when it
-- began.
theorem mem_issuesOf {i : Issue} (hi : i ∈ issuesOf dflt D) :
    ∃ w ∈ D, ∃ ttlMs strategy, w.call = .set i.key i.value ttlMs strategy ∧
      i.ttlMs = ttlMs.getD dflt ∧ i.time = w.start := by
  obtain ⟨w, hw, hwi⟩ := List.mem_filterMap.1 hi
  unfold CallRecord.issue at hwi
  split at hwi
  · next key value ttlMs strategy hcall =>
    cases hwi
    exact ⟨w, hw, ttlMs, strategy, hcall, rfl, rfl⟩
  · cases hwi

-- A value served by a set of the log was written by a call of the log.
theorem Served.written {key : String} {v : ByteArray} {now : Nat}
    (h : Served lz comp memOnly (issuesOf dflt D) key v now) :
    ∃ w ∈ D, ∃ value ttlMs strategy, w.call = .set key value ttlMs strategy ∧
      (value = v ∨ Frame.decode lz (Frame.encode lz comp value).2 = .ok v) ∧
      (memOnly = true → value = v ∧ now < w.start + max (ttlMs.getD dflt) 1) := by
  obtain ⟨i, hi, hk, hval, hlive⟩ := h
  obtain ⟨w, hw, ttlMs, strategy, hcall, httl, htime⟩ := mem_issuesOf hi
  refine ⟨w, hw, i.value, ttlMs, strategy, hk ▸ hcall, hval, fun hm => ?_⟩
  rw [← httl, ← htime]
  exact hlive hm

theorem WrittenBefore.nil : WrittenBefore lz comp dflt memOnly [] := by
  intro pre r post h
  simp at h

-- A log stays written when the call added to it is no read, or a read of a value written before.
theorem WrittenBefore.snoc (hD : WrittenBefore lz comp dflt memOnly D) {r : CallRecord}
    (hr : ∀ key v, r.call = .get key → r.answer = .found (some v) →
      ∃ w ∈ D, ∃ value ttlMs strategy, w.call = .set key value ttlMs strategy ∧
        (value = v ∨ Frame.decode lz (Frame.encode lz comp value).2 = .ok v) ∧
        (memOnly = true → value = v ∧ r.stop < w.start + max (ttlMs.getD dflt) 1)) :
    WrittenBefore lz comp dflt memOnly (D ++ [r]) := by
  intro pre r' post h
  -- the read is the call added, or a call of the log before it
  rcases List.eq_nil_or_concat post with rfl | ⟨post', x, rfl⟩
  · obtain ⟨rfl, hr'⟩ := List.append_inj' h rfl
    cases List.singleton_inj.1 hr'
    exact hr
  · have h' : D ++ [r] = (pre ++ r' :: post') ++ [x] := by simpa using h
    exact hD pre r' post' (List.append_inj' h' rfl).1

-- A call that is no set and no read leaves the sets of the log and keeps its reads written.
theorem WrittenBefore.other (hD : WrittenBefore lz comp dflt memOnly D) {r : CallRecord}
    {o : Holding} (ho : o = .caller (issuesOf dflt D)) (hset : r.issue dflt = none)
    (hget : ∀ key, r.call ≠ .get key) :
    o = .caller (issuesOf dflt (D ++ [r])) ∧ WrittenBefore lz comp dflt memOnly (D ++ [r]) := by
  refine ⟨?_, hD.snoc fun key _ hc => absurd hc (hget key)⟩
  rw [ho, issuesOf_append, hset]
  simp

/-- A call made where the caller holds the sets of its log, and the log's reads were written,
ends with the caller holding the sets of the log with that call added, whose reads were written
too. -/
theorem runs_call (hD : WrittenBefore lz comp dflt memOnly D) {s : Host} {M : Multiset Holding}
    (hI : Traced lz comp dflt memOnly s (.caller (issuesOf dflt D) ::ₘ M)) (c : CacheCall) :
    Stage.Runs Host.stage (readShares lz comp dflt memOnly)
      (fun a o' s' => o' = .caller (issuesOf dflt (D ++ [⟨c, s.clock, a, s'.clock⟩])) ∧
        WrittenBefore lz comp dflt memOnly (D ++ [⟨c, s.clock, a, s'.clock⟩]))
      (.caller (issuesOf dflt D)) s c.act := by
  cases c with
  | get key =>
    refine (runs_getRaw hI key).bind fun found o' s' ⟨ho', _, hserved⟩ => .done ⟨?_, ?_⟩
    · rw [ho', issuesOf_append]
      simp [CallRecord.issue]
    · refine hD.snoc fun key' v hc ha => ?_
      cases hc
      cases ha
      exact (hserved v rfl).written
  | set key value ttlMs strategy =>
    refine (runs_setRaw hI key value ttlMs strategy).bind fun _ o' _ ⟨ho', _⟩ => .done ⟨?_, ?_⟩
    · rw [ho', issuesOf_append]
      rfl
    · exact hD.snoc fun _ _ hc => nomatch hc
  | contains key =>
    exact (runs_contains hI key).bind fun _ o' _ ⟨ho', _⟩ =>
      .done (hD.other ho' rfl fun _ h => nomatch h)
  | delete key =>
    exact (runs_delete hI key).bind fun _ o' _ ⟨ho', _⟩ =>
      .done (hD.other ho' rfl fun _ h => nomatch h)
  | invalidate pattern =>
    exact (runs_invalidate hI pattern).bind fun _ o' _ ⟨ho', _⟩ =>
      .done (hD.other ho' rfl fun _ h => nomatch h)
  | sweep =>
    exact (runs_sweep hI).bind fun _ o' _ ⟨ho', _⟩ =>
      .done (hD.other ho' rfl fun _ h => nomatch h)
  | clearLocal =>
    exact (runs_clearLocal hI).bind fun _ o' _ ⟨ho', _⟩ =>
      .done (hD.other ho' rfl fun _ h => nomatch h)
  | flush =>
    exact .wait (fun _ => _) (fun _ _ hI _ => hI) fun _ _ _ _ =>
      .done (hD.other rfl rfl fun _ h => nomatch h)

end Log

/-- Every value a read answers, in any run of a caller beside the write-behind writes it starts
and with the clock moving as it likes, was written for its key by a set earlier in the caller's
log: that set's value or what its frame decodes to. Without a distributed tier it is the value
itself, and the read returned before the set's time to live ran out from when the set began. -/
theorem read_value_was_written (lz : BlockCodec) (cfg : CacheConfig) (backend : Bool)
    (calls : List CacheCall) {h h' : Host} (hcache : h.cache = TieredCache.create lz cfg backend)
    (hjobs : h.requested = [])
    {log : List CallRecord} (hrun : Host.stage.Ends h (CacheCall.program calls) log h') :
    WrittenBefore lz cfg.compression (cfg.defaultTtlSecs * 1000) (!backend) log := by
  -- the caller holds the sets of its log, whose reads were written
  have hcaller : ∀ s M, Traced lz cfg.compression (cfg.defaultTtlSecs * 1000) (!backend) s
      (.caller [] ::ₘ M) →
      Stage.Runs Host.stage (readShares lz cfg.compression (cfg.defaultTtlSecs * 1000) (!backend))
        (fun log o _ => o = .caller (issuesOf (cfg.defaultTtlSecs * 1000) ([] ++ log)) ∧
          WrittenBefore lz cfg.compression (cfg.defaultTtlSecs * 1000) (!backend) ([] ++ log))
        (.caller []) s (CacheCall.program calls) :=
    fun s _ _ => CacheCall.runs_program
      (fun (D : List CallRecord) (o : Holding) => o = .caller (issuesOf (cfg.defaultTtlSecs * 1000) D) ∧
        WrittenBefore lz cfg.compression (cfg.defaultTtlSecs * 1000) (!backend) D)
      (fun _ _ => True) (fun _ _ c ⟨ho, hD⟩ _ s _ hI => by subst ho; exact runs_call hD hI c)
      calls [] (.caller []) ⟨rfl, .nil⟩ (CacheCall.obeys_of_forall (fun _ _ => trivial) _ _) s
  obtain ⟨_, _, ⟨-, hlog⟩, -⟩ := Stage.Runs.ends poised_readJobs (fun _ t _ _ hT => hT.setClock t) hcaller
    (traced_create lz cfg backend hcache hjobs) hrun
  simpa using hlog

/-- Without a distributed tier, a value set and read back at once was written by that set. -/
theorem read_back_in_memory_was_written :
    ∃ h', Host.stage.Ends { cache := TieredCache.create .lz4 {} false }
        (CacheCall.program [.set "k" "7".toUTF8 (some 1000) .cacheAside, .get "k"])
        [⟨.set "k" "7".toUTF8 (some 1000) .cacheAside, 0, .flag true, 0⟩,
          ⟨.get "k", 0, .found (some "7".toUTF8), 0⟩] h' ∧
      WrittenBefore .lz4 ({} : CacheConfig).compression (({} : CacheConfig).defaultTtlSecs * 1000) true
        [⟨.set "k" "7".toUTF8 (some 1000) .cacheAside, 0, .flag true, 0⟩,
          ⟨.get "k", 0, .found (some "7".toUTF8), 0⟩] := by
  -- the run: the set, and then the read, each a turn of the caller
  exact Exists.imp (fun h' (hrun : Host.stage.Ends _ _ _ h') =>
      ⟨hrun, read_value_was_written .lz4 {} false _ rfl rfl hrun⟩)
    ⟨_, Scene.ends_play 100 [.main, .main] (by decide) (by decide)⟩

/-- With a distributed tier, a value set with a time to live of one second, dropped from memory
and read back from the distributed tier half a second later, is kept in memory for the default
time to live from that read: a read a second and a half after the set still answers it. -/
theorem default_ttl_outlives_written_ttl :
    ∃ h', Host.stage.Ends { cache := TieredCache.create .lz4 {} true }
        (CacheCall.program
          [.set "k" "7".toUTF8 (some 1000) .cacheAside, .clearLocal, .get "k", .get "k"])
        [⟨.set "k" "7".toUTF8 (some 1000) .cacheAside, 0, .flag true, 0⟩, ⟨.clearLocal, 0, .done, 0⟩,
          ⟨.get "k", 500, .found (some "7".toUTF8), 500⟩,
          ⟨.get "k", 1500, .found (some "7".toUTF8), 1500⟩] h' ∧
      ¬ WrittenBefore .lz4 ({} : CacheConfig).compression (({} : CacheConfig).defaultTtlSecs * 1000) true
        [⟨.set "k" "7".toUTF8 (some 1000) .cacheAside, 0, .flag true, 0⟩, ⟨.clearLocal, 0, .done, 0⟩,
          ⟨.get "k", 500, .found (some "7".toUTF8), 500⟩,
          ⟨.get "k", 1500, .found (some "7".toUTF8), 1500⟩] := by
  -- the run: the set, the memory cleared, the clock at 500 for the first read and at 1500 for the
  -- second
  refine ⟨_, Scene.ends_play 100 [.main, .main, .tick 500, .main, .tick 1500, .main] (by decide)
    (by decide), fun hw => ?_⟩
  -- the last read answers the value after the only set's time to live ran out
  obtain ⟨w, hmem, value, ttlMs, strategy, hcall, -, hlive⟩ :=
    hw _ _ [] (List.dropLast_append_getLast (by simp)).symm "k" _ rfl rfl
  simp only [List.dropLast_cons_cons, List.dropLast_singleton, List.mem_cons, List.not_mem_nil,
    or_false] at hmem
  rcases hmem with rfl | rfl | rfl <;> cases hcall
  exact absurd (hlive rfl).2 (by decide)

end TierCache
