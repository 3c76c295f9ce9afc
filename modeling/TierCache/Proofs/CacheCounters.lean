import Mathlib
import TierCache.Proofs.CacheTraffic

/-!
# The cache's counters over any run

Main statement: `counters_count_requests`. A typed read counts its hit before it reads the value,
so a value that does not read as the shape still counts as a hit
(`unreadable_value_counts_as_hit`).
-/

namespace TierCache

namespace Request

variable {r : Request} {reply : Reply}

/-- One request moves each counter by what it is and, for a read, by what it found. -/
theorem counters_effect (h : r.Fits reply) (t : Traffic) :
    (r.effect reply t).hits = t.hits + (if r.looksUp && reply.found.isSome then 1 else 0) ∧
    (r.effect reply t).misses = t.misses + (if r.looksUp && reply.found.isNone then 1 else 0) ∧
    (r.effect reply t).sets = t.sets + (if r.writes then 1 else 0) ∧
    (r.effect reply t).deletes = t.deletes + (if r.removes then 1 else 0) ∧
    (r.effect reply t).latencySamples =
      if r.looksUp || r.writes then min (t.latencySamples + 1) latencyWindow else t.latencySamples := by
  -- the reads split on what they found, the writes on whether they worked
  cases h
  case get found | read found | readOr found => cases found <;> exact ⟨rfl, rfl, rfl, rfl, rfl⟩
  case setRaw ok | write ok => cases ok <;> exact ⟨rfl, rfl, rfl, rfl, rfl⟩
  all_goals exact ⟨rfl, rfl, rfl, rfl, rfl⟩

/-- A counter that each entry of a log moves by one when `p` holds of it ends moved by the number of
entries `p` holds of. -/
theorem effects_count (c : Traffic → Nat) (p : Request × Reply → Bool)
    (hstep : ∀ e t, e.1.Fits e.2 → c (e.1.effect e.2 t) = c t + if p e then 1 else 0) :
    ∀ (log : List (Request × Reply)) (t : Traffic), (∀ e ∈ log, e.1.Fits e.2) →
      c (effects log t) = c t + log.countP p
  | [], _, _ => rfl
  | e :: log, t, hfits => by
    have hrest := effects_count c p hstep log (e.1.effect e.2 t) fun e' he' =>
      hfits e' (List.mem_cons_of_mem _ he')
    rw [effects_cons, hrest, hstep e t (hfits e List.mem_cons_self), List.countP_cons]
    omega

/-- The latency samples of a log: one per entry `p` holds of, the window keeping the last
thousand. -/
theorem effects_latency (p : Request × Reply → Bool)
    (hstep : ∀ e t, e.1.Fits e.2 → (e.1.effect e.2 t).latencySamples =
      if p e then min (t.latencySamples + 1) latencyWindow else t.latencySamples) :
    ∀ (log : List (Request × Reply)) (t : Traffic), (∀ e ∈ log, e.1.Fits e.2) →
      t.latencySamples ≤ latencyWindow →
      (effects log t).latencySamples = min (t.latencySamples + log.countP p) latencyWindow
  | [], _, _, hwindow => by simp [hwindow]
  | e :: log, t, hfits, hwindow => by
    have hsample := hstep e t (hfits e List.mem_cons_self)
    -- the window still holds at most a thousand samples after the first entry
    have hwindow' : (e.1.effect e.2 t).latencySamples ≤ latencyWindow := by
      rw [hsample]
      split <;> omega
    rw [effects_cons, effects_latency p hstep log _ (fun e' he' => hfits e' (List.mem_cons_of_mem _ he'))
      hwindow', hsample, List.countP_cons]
    split <;> omega

end Request

variable {h h' : Host} {rs : List Request} {log : List (Request × Reply)}

/-- The counters of reads and writes over any run of a caller's requests, beside the write-behind
writes its sets schedule and with the clock moving as it likes, from a cache whose hits are split
between the tiers and whose latency window is within bounds. The log lists the requests in order,
each with a reply that fits it: a raw read gives what its lookup found, and a typed read what that
reads as, nothing when it does not read. Every hit is a memory hit or a distributed hit; the hits
grow by the reads whose lookup found a value and the misses by those that found none, so together
by the reads; the writes grow by the writes whose value serialized, the removals by the removals,
and the latency samples by those reads and writes, up to the window. -/
theorem counters_count_requests (hreq : h.requested = []) (hsplit : h.cache.HitsSplit)
    (hwindow : h.cache.metrics.latencySamples ≤ latencyWindow)
    (hrun : Host.stage.Ends h (Request.program rs) log h') :
    log.map (·.1) = rs ∧ (∀ e ∈ log, e.1.Fits e.2) ∧
      h'.cache.metrics.hits = h'.cache.metrics.memoryHits + h'.cache.metrics.distributedHits ∧
      h'.cache.metrics.hits =
        h.cache.metrics.hits + log.countP (fun e => e.1.looksUp && e.2.found.isSome) ∧
      h'.cache.metrics.misses =
        h.cache.metrics.misses + log.countP (fun e => e.1.looksUp && e.2.found.isNone) ∧
      h'.cache.metrics.hits + h'.cache.metrics.misses =
        h.cache.metrics.hits + h.cache.metrics.misses + rs.countP (·.looksUp) ∧
      h'.cache.metrics.sets = h.cache.metrics.sets + rs.countP (·.writes) ∧
      h'.cache.metrics.deletes = h.cache.metrics.deletes + rs.countP (·.removes) ∧
      h'.cache.metrics.latencySamples =
        min (h.cache.metrics.latencySamples + rs.countP (fun r => r.looksUp || r.writes))
          latencyWindow := by
  obtain ⟨htraffic, hsplit'⟩ := traffic_of_ends hreq hsplit hrun
  obtain ⟨hcalls, hfits⟩ := Request.fits_of_ends hrun
  -- each counter is one field of the traffic, moved entry by entry
  have hcount : ∀ (c : Traffic → Nat) (p : Request × Reply → Bool),
      (∀ e t, e.1.Fits e.2 → c (e.1.effect e.2 t) = c t + if p e then 1 else 0) →
      c h'.cache.traffic = c h.cache.traffic + log.countP p :=
    fun c p hstep => htraffic ▸ Request.effects_count c p hstep log _ hfits
  -- the counts of requests are the counts of the log's entries
  have hrs : ∀ q : Request → Bool, log.countP (fun e => q e.1) = rs.countP q := by
    intro q
    rw [← hcalls, List.countP_map]
    rfl
  have hhits := hcount Traffic.hits _ fun _ t hf => (Request.counters_effect hf t).1
  have hmisses := hcount Traffic.misses _ fun _ t hf => (Request.counters_effect hf t).2.1
  have hlookups := hcount (fun t => t.hits + t.misses) (fun e => e.1.looksUp) fun e t hf => by
    obtain ⟨h1, h2, -⟩ := Request.counters_effect hf t
    rw [h1, h2]
    cases e.2.found <;> cases e.1.looksUp <;> simp <;> omega
  have hsets := hcount Traffic.sets (fun e => e.1.writes) fun _ t hf =>
    (Request.counters_effect hf t).2.2.1
  have hdeletes := hcount Traffic.deletes (fun e => e.1.removes) fun _ t hf =>
    (Request.counters_effect hf t).2.2.2.1
  have hlatency := Request.effects_latency (fun e => e.1.looksUp || e.1.writes)
    (fun _ t hf => (Request.counters_effect hf t).2.2.2.2) log h.cache.traffic hfits hwindow
  rw [← htraffic, hrs (fun r => r.looksUp || r.writes)] at hlatency
  rw [hrs] at hlookups hsets hdeletes
  exact ⟨hcalls, hfits, hsplit', hhits, hmisses, hlookups, hsets, hdeletes, hlatency⟩

/-- A write and two reads in a memory-only cache, the second of a key never written: one hit, one
miss, one write and three latency samples. -/
theorem write_then_two_reads_counted :
    ∃ log h', Host.stage.Ends { cache := TieredCache.create .lz4 {} false }
        (Request.program [.call (.set "k" "7".toUTF8 none .cacheAside), .get "k" .u64,
          .call (.get "x")]) log h' ∧
      h'.cache.metrics.hits + h'.cache.metrics.misses = 2 ∧ h'.cache.metrics.sets = 1 ∧
        h'.cache.metrics.latencySamples = 3 :=
  Exists.imp (fun log => Exists.imp fun h' hrun =>
      have hcounts := counters_count_requests (by exact rfl) (by exact rfl) (by decide) hrun
      ⟨hrun, hcounts.2.2.2.2.2.1, hcounts.2.2.2.2.2.2.1, hcounts.2.2.2.2.2.2.2.2⟩)
    ⟨_, _, Scene.ends_play_get 100 [.main, .main, .main] (by decide +kernel) (by decide +kernel)⟩

/-- A value written as text and read as an unsigned number, in a memory-only cache: the read finds
the value and gives nothing, yet the cache counts a hit and no miss. -/
theorem unreadable_value_counts_as_hit :
    ∃ log h', Host.stage.Ends { cache := TieredCache.create .lz4 {} false }
        (Request.program [.set "k" (.ok "\"text\"".toUTF8) none .cacheAside, .get "k" .u64]) log h' ∧
      log.map (fun e => (e.1.looksUp, e.2.found.isSome, e.2.gave)) =
        [(false, false, false), (true, true, false)] ∧
      h'.cache.metrics.hits = 1 ∧ h'.cache.metrics.misses = 0 :=
  ⟨_, _, Scene.ends_play_get 100 [.main, .main] (by decide +kernel) (by decide +kernel),
    by decide +kernel, by decide +kernel, by decide +kernel⟩

end TierCache
