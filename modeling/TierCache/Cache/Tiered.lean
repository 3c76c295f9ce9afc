import TierCache.Cache.Events
import TierCache.Store.Memory
import TierCache.Store.Distributed
import TierCache.Config.Settings
import TierCache.Observe.Health
/-!
# The two-tier cache at rest

The cache is a memory tier in front of an optional distributed tier, with the counters both
feed, the frame settings for values sent to the distributed tier, the default time to live, an
optional follower of its events, an optional queue of warming triggers, and the bookkeeping of
writes still on their way to the distributed tier (write-behind).

This module holds the cache's state and the changes that take no time. Reads and writes that
call the distributed tier take time, and live with the fibers that run them.
-/

namespace TierCache

/-- Writes scheduled for the distributed tier and not yet finished. They take permits in the
order they were scheduled: a write holds the ticket it was given and goes when every earlier
ticket has gone and a permit is free. -/
structure WriteBehind where
  pending : Nat := 0
  /-- Permits free. -/
  permits : Nat
  /-- The ticket the next scheduled write gets. -/
  nextTicket : Nat := 0
  /-- The ticket whose turn it is. -/
  serving : Nat := 0
  deriving Repr

/-- The cache's state. -/
structure TieredCache where
  memory : MemoryTier
  distributed : Option DistributedTier
  /-- The LZ4 library's block functions, which frame values for the distributed tier. -/
  codec : BlockCodec
  compression : Compression
  defaultTtlMs : Nat
  metrics : Metrics := {}
  events : Option EventFeed := none
  triggers : Option TriggerQueue := none
  writeBehind : WriteBehind

namespace TieredCache

/-- A cache as the settings describe it, framing with the LZ4 functions `lz`, over an empty
in-process backend when `backend` holds and memory only otherwise. -/
def create (lz : BlockCodec) (c : CacheConfig) (backend : Bool) : TieredCache :=
  { memory := MemoryTier.create c.memory.capacity
    distributed := if backend then
        some (DistributedTier.create c.circuitBreaker.failureThreshold
          c.circuitBreaker.recoveryTimeoutSecs c.distributed.requestTimeoutMs)
      else none
    codec := lz
    compression := c.compression
    defaultTtlMs := c.defaultTtlSecs * 1000
    writeBehind := { permits := max c.distributed.writeBehindConcurrency 1 } }

/-- Whether there is no distributed tier. -/
def memoryOnly (t : TieredCache) : Bool := t.distributed.isNone

/-- The distributed backend's name, if there is one. -/
def backendName (t : TieredCache) : Option String := t.distributed.map fun _ => DistributedTier.name

/-- Applies a change of the memory tier that also moves the counters. -/
def onMemory {α : Type} (t : TieredCache) (f : MemoryTier → Metrics → α × MemoryTier × Metrics) :
    α × TieredCache :=
  let (a, memory, metrics) := f t.memory t.metrics
  (a, { t with memory, metrics })

/-- Stores a value in the memory tier at `now`. -/
def remember (t : TieredCache) (key : String) (value : ByteArray) (ttlMs : Nat) (origin : Origin)
    (now : Nat) : TieredCache :=
  (t.onMemory fun m c => m.set c key value ttlMs origin now).2

/-- Moves the counters. -/
def count (t : TieredCache) (f : Metrics → Metrics) : TieredCache := { t with metrics := f t.metrics }

/-- Tells the follower, if there is one. -/
def publish (t : TieredCache) (e : CacheEvent) : TieredCache :=
  { t with events := t.events.map (·.publish e) }

/-- Offers a written key to the trigger queue, if there is one; a refused offer is counted as
dropped. -/
def offerTrigger (t : TieredCache) (key : String) : TieredCache :=
  match t.triggers with
  | none => t
  | some q =>
    match q.offer key with
    | some q => { t with triggers := some q }
    | none => t.count Metrics.triggerDropped

/-- The distributed tier's health, read off its breaker at `now`: degraded when there is none
or its breaker is not closed. -/
def distributedCheck (t : TieredCache) (now : Nat) : HealthCheck :=
  let name := "distributed_tier"
  match t.distributed with
  | none => ⟨name, .degraded, some "memory-only mode"⟩
  | some d =>
    let s := d.breaker.snapshot now
    match s.state with
    | .closed => ⟨name, .healthy, some DistributedTier.name⟩
    | .halfOpen => ⟨name, .degraded, some (DistributedTier.name ++ ": circuit half-open, testing recovery")⟩
    | .open => ⟨name, .degraded, some (DistributedTier.name ++ ": circuit open after " ++
        toString s.failures ++ " failures, serving from memory")⟩

/-- The memory tier's occupancy, always healthy. -/
def memoryCheck (t : TieredCache) : HealthCheck :=
  ⟨"memory_tier", .healthy, some (toString t.memory.size ++ "/" ++ toString t.memory.capacity ++ " entries")⟩

end TieredCache

end TierCache
