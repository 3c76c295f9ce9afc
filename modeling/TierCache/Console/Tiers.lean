import TierCache.Console.Forms

/-!
# Console requests on the breaker and the two tiers

Each request carries a list of steps, run in order against one breaker, one memory tier, or one
distributed tier over the in-process backend. A clock in milliseconds starts at zero and moves
only when a step advances it or a backend call waits.
-/

namespace TierCache

namespace Console

/-- One step on a breaker at time `now`. -/
def breakerStep (st : Breaker × Nat) (step : Json) : Json × (Breaker × Nat) :=
  let (b, now) := st
  match str? step "do" with
  | some "failure" => let b := b.failure now; (.str b.state.display, (b, now))
  | some "success" => let b := b.success; (.str b.state.display, (b, now))
  | some "can_execute" => let (r, b) := b.permits now; (.bool r, (b, now))
  | some "state" => (.str b.state.display, (b, now))
  | some "failure_count" => (Json.ofNat b.failures, (b, now))
  | some "snapshot" => (breakerJson (b.snapshot now), (b, now))
  | some "advance" => (.null, (b, now + (nat? step "ms").getD 0))
  | _ => (badInput "unknown breaker step", (b, now))

/-- A breaker request. -/
def breakerRequest (req : Json) : Json :=
  let threshold := (nat? req "threshold").getD 5
  if threshold > u32Max then badInput "threshold exceeds u32" else
  let b := Breaker.create threshold ((nat? req "recovery_secs").getD 30)
  ok (.arr (runSteps breakerStep (b, 0) ((list? req "ops").getD [])))

/-- The state of a memory-tier request: the tier, the counters and the clock. -/
structure MemoryRun where
  tier : MemoryTier
  metrics : Metrics := {}
  now : Nat := 0

/-- One step on a memory tier. -/
def memoryStep (r : MemoryRun) (step : Json) : Json × MemoryRun :=
  let key := (str? step "key").getD ""
  let t := r.tier
  let m := r.metrics
  match str? step "do" with
  | some "set" =>
    let value := (bytes? step "value").getD ByteArray.empty
    match (str? step "tier").getD "memory" with
    | "memory" | "distributed" =>
      let origin := if str? step "tier" == some "distributed" then Origin.distributed else .memory
      let (n, t, m) := t.set m key value ((nat? step "ttl_ms").getD 60000) origin r.now
      (Json.ofNat n, { r with tier := t, metrics := m })
    | other => (badInput ("unknown tier '" ++ other ++ "'"), r)
  | some "get" =>
    let (v, t, m) := t.get m key r.now
    (hexOrNull v, { r with tier := t, metrics := m })
  | some "peek" =>
    ((match t.peek key r.now with
      | some i => itemJson i r.now
      | none => .null), r)
  | some "delete" =>
    let (b, t, m) := t.delete m key
    (.bool b, { r with tier := t, metrics := m })
  | some "contains" => (.bool (t.contains key r.now), r)
  | some "remove_matching" =>
    let (n, t, m) := t.removeMatching m ((str? step "pattern").getD "") r.now
    (Json.ofNat n, { r with tier := t, metrics := m })
  | some "sweep" =>
    let (n, t, m) := t.sweep m r.now
    (Json.ofNat n, { r with tier := t, metrics := m })
  | some "keys" => (.arr ((sortStrings t.keys).map .str), r)
  | some "len" => (Json.ofNat t.size, r)
  | some "is_empty" => (.bool (t.size == 0), r)
  | some "usage" => (Json.ofNat t.bytes, r)
  | some "capacity" => (Json.ofNat t.capacity, r)
  | some "clear" =>
    let (t, m) := t.clear m
    (.null, { r with tier := t, metrics := m })
  | some "metrics" => (metricsJson m, r)
  | some "advance" => (.null, { r with now := r.now + (nat? step "ms").getD 0 })
  | _ => (badInput "unknown memory step", r)

/-- A memory-tier request. -/
def memoryRequest (req : Json) : Json :=
  let t := MemoryTier.create ((nat? req "capacity").getD 10)
  ok (.arr (runSteps memoryStep { tier := t } ((list? req "ops").getD [])))

/-- The state of a distributed-tier request. -/
structure TierRun where
  tier : DistributedTier
  metrics : Metrics := {}
  now : Nat := 0

/-- Applies a guarded call to the run and answers its result. -/
def TierRun.apply {α : Type} (r : TierRun) (g : Guarded α) (answer : α → Json) : Json × TierRun :=
  let (d, m, now, res) := g
  (stepAnswer (res.map answer), { r with tier := d, metrics := m, now })

/-- One step on a distributed tier. -/
def tierStep (r : TierRun) (step : Json) : Json × TierRun :=
  let key := (str? step "key").getD ""
  let d := r.tier
  let m := r.metrics
  let b := d.backend
  match str? step "do" with
  | some "get" => r.apply (d.get m key r.now) hexOrNull
  | some "set" =>
    r.apply (d.set m key ((bytes? step "frame").getD ByteArray.empty) ((nat? step "ttl_ms").getD 60000)
      r.now) fun _ => .null
  | some "delete" => r.apply (d.delete m key r.now) .bool
  | some "delete_matching" => r.apply (d.deleteMatching m ((str? step "pattern").getD "") r.now) Json.ofNat
  | some "ping" => r.apply (d.ping m r.now) fun _ => .null
  | some "available" => (.bool d.available, r)
  | some "circuit" => (breakerJson (d.breaker.snapshot r.now), r)
  | some "name" => (.str DistributedTier.name, r)
  | some "errors" => (Json.ofNat m.errors, r)
  | some "fail" =>
    (.null, { r with tier := { d with backend := { b with failing := (bool? step "on").getD true } } })
  | some "latency" => (.null, { r with tier := { d with backend := { b with latency := nat? step "ms" } } })
  | some "backend_stats" => (backendStatsJson b.stats, r)
  | some "backend_len" => (Json.ofNat b.size, r)
  | some "advance" => (.null, { r with now := r.now + (nat? step "ms").getD 0 })
  | _ => (badInput "unknown distributed-tier step", r)

/-- A distributed-tier request. -/
def tierRequest (req : Json) : Json :=
  let threshold := (nat? req "threshold").getD 5
  if threshold > u32Max then badInput "threshold exceeds u32" else
  let d := DistributedTier.create threshold ((nat? req "recovery_secs").getD 30)
    ((nat? req "timeout_ms").getD 500)
  ok (.arr (runSteps tierStep { tier := d } ((list? req "ops").getD [])))

end Console

end TierCache
