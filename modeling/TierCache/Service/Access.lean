import TierCache.Service.Host
import TierCache.Frame.Codec
import TierCache.Json.Shape
/-!
# Reading and writing the cache

Reads try the memory tier first, then the distributed tier when its breaker admits the call; a
value found there is decoded from its frame and kept in memory with the default time to live.
Writes follow the write strategy: cache-aside writes memory and then the distributed tier,
write-through the distributed tier and then memory whatever happened, and write-behind writes
memory now and schedules the distributed write as a job of its own.

Failures of the distributed tier never reach the caller: they are counted by the breaker and the
counters and read as a miss or a `false`. Every call to the distributed tier takes as long as
the backend's delay, or the request timeout if that is shorter; the caller waits that long, and
the other fibers run meanwhile.
-/

namespace TierCache

namespace Act

/-- Changes the distributed tier, if there is one. -/
def changeTier (f : DistributedTier → DistributedTier) : Act Unit :=
  changeCache fun _ c => { c with distributed := c.distributed.map f }

/-- Whether there is no distributed tier. -/
def memoryOnly : Act Bool := look fun h => h.cache.memoryOnly

/-- One call to the distributed tier through its breaker and under its timeout. -/
def callTier (call : BackendCall) : Act (Except CacheError BackendReply) := do
  let admitted ← Fiber.modifyGet fun h =>
    match h.cache.distributed with
    | none => (none, h)
    | some d =>
      let (d, a) := d.start call h.clock
      (a, { h with cache := { h.cache with distributed := some d } })
  match admitted with
  | none => return .error .circuitOpen
  | some a =>
    match a.waitMs with
    | some ms => sleep ms
    | none => pure ()
    Fiber.modifyGet fun h =>
      match h.cache.distributed with
      | none => (.error .circuitOpen, h)
      | some d =>
        let (d, metrics, r) := d.complete h.cache.metrics a h.clock
        (r, { h with cache := { h.cache with distributed := some d, metrics } })

/-- Fetches a frame from the distributed tier. -/
def tierGet (key : String) : Act (Except CacheError (Option ByteArray)) := do
  return (← callTier (.get key)).map fun
    | .frame f => f
    | _ => none

/-- Stores a frame in the distributed tier. -/
def tierSet (key : String) (frame : ByteArray) (ttlMs : Nat) : Act (Except CacheError Unit) := do
  return (← callTier (.setex key frame ttlMs)).map fun _ => ()

/-- Removes a key from the distributed tier. -/
def tierDelete (key : String) : Act (Except CacheError Bool) := do
  return (← callTier (.delete key)).map fun
    | .removed b => b
    | _ => false

/-- Removes the keys a glob matches from the distributed tier; a pattern with no glob
characters is a single removal. -/
def tierDeleteMatching (pattern : String) : Act (Except CacheError Nat) := do
  if Glob.isPattern pattern then
    return (← callTier (.deleteMatching pattern)).map fun
      | .count n => n
      | _ => 0
  else
    return (← callTier (.delete pattern)).map fun
      | .removed b => if b then 1 else 0
      | _ => 0

/-- Calls the backend itself, past the breaker and without a timeout: the call is counted, waits
the backend's delay, and then fails if failure is switched on or acts on the store. -/
def callBackend (call : BackendCall) : Act (Except CacheError BackendReply) := do
  let delay ← Fiber.modifyGet fun h =>
    match h.cache.distributed with
    | none => (none, h)
    | some d =>
      let b := d.backend
      let d := { d with backend := { b with stats := call.count b.stats } }
      (b.latency, { h with cache := { h.cache with distributed := some d } })
  match delay with
  | some ms => sleep ms
  | none => pure ()
  Fiber.modifyGet fun h =>
    match h.cache.distributed with
    | none => (.error (.backend "no backend"), h)
    | some d =>
      if d.backend.failing then (.error (.backend "injected failure"), h)
      else
        let (b, r) := d.backend.act call h.clock
        (.ok r, { h with cache := { h.cache with distributed := some { d with backend := b } } })

/-- Looks a key up in both tiers, counting the hit. -/
def lookup (key : String) : Act (Option ByteArray) := do
  match ← onCache fun now c => c.onMemory fun m k => m.get k key now with
  | some v =>
    changeCache fun _ c => c.count Metrics.memoryHit
    return some v
  | none =>
    if ← memoryOnly then return none
    match ← tierGet key with
    | .ok (some frame) =>
      match ← look fun h => Frame.decode h.cache.codec frame with
      | .ok v =>
        changeCache fun now c => (c.remember key v c.defaultTtlMs .distributed now).count Metrics.distributedHit
        return some v
      | .error _ =>
        changeCache fun _ c => c.count Metrics.error
        return none
    | _ => return none

/-- Reads a key's serialized value, counting a miss when neither tier has it and taking a
latency sample. -/
def getRaw (key : String) : Act (Option ByteArray) := do
  let found ← lookup key
  if found.isNone then changeCache fun _ c => c.count Metrics.miss
  changeCache fun _ c => c.count Metrics.sample
  return found

/-- Reads a serialized value found, if any, as data of a shape. A value that does not read as the
shape counts as an error and reads as nothing. -/
def readAs (sh : Shape) : Option ByteArray → Act (Option Json)
  | none => return none
  | some v =>
    match sh.read v with
    | .ok x => return some x
    | .error _ => do
      changeCache fun _ c => c.count Metrics.error
      return none

/-- Reads a key's value as data of a shape. A value found that does not read as the shape counts
as an error and reads as nothing, its hit already counted. -/
def get (sh : Shape) (key : String) : Act (Option Json) := do
  readAs sh (← getRaw key)

/-- Reads a key's value as data of a shape, or `dflt` when there is none. -/
def getOr (sh : Shape) (key : String) (dflt : Json) : Act Json := do
  return (← get sh key).getD dflt

/-- Reads a key's serialized value for the cache's own bookkeeping: no counting, no latency
sample, and nothing kept in memory. -/
def peekRaw (key : String) : Act (Option ByteArray) := do
  match ← look fun h => h.cache.memory.peek key h.clock with
  | some item => return some item.value
  | none =>
    if ← memoryOnly then return none
    match ← tierGet key with
    | .ok (some frame) => look fun h => (Frame.decode h.cache.codec frame).toOption
    | _ => return none

/-- Whether either tier holds a key; nothing is counted or kept. -/
def contains (key : String) : Act Bool := do
  if ← look fun h => h.cache.memory.contains key h.clock then return true
  if ← memoryOnly then return false
  match ← tierGet key with
  | .ok (some _) => return true
  | _ => return false

/-- Writes a serialized value to the distributed tier, framed; true in memory-only mode. -/
def writeThrough (key : String) (v : ByteArray) (ttlMs : Nat) : Act Bool := do
  if ← memoryOnly then return true
  let frame ← look fun h => (Frame.encode h.cache.codec h.cache.compression v).2
  return (← tierSet key frame ttlMs).toBool

/-- Schedules the distributed write of a write-behind write: counted as pending and scheduled,
with the next ticket. Nothing is scheduled in memory-only mode. -/
def scheduleWrite (key : String) (v : ByteArray) (ttlMs : Nat) : Act Unit := do
  if ← memoryOnly then return
  let (frame, ticket) ← Fiber.modifyGet fun h =>
    let c := h.cache
    let wb := c.writeBehind
    ((((Frame.encode c.codec c.compression v).2), wb.nextTicket),
      { h with cache := { c with writeBehind := { wb with pending := wb.pending + 1, nextTicket := wb.nextTicket + 1 },
                                 metrics := c.metrics.writeBehind } })
  spawn (.writeBehind key frame ttlMs ticket)

/-- Stores a serialized value under a key by a strategy, with the default time to live when none
is given; answers whether the distributed write worked (always, in memory-only mode, and for
write-behind). Every write counts and takes a latency sample; a write that worked is published
and offered as a warming trigger. -/
def setRaw (key : String) (v : ByteArray) (ttlMs : Option Nat) (strategy : WriteStrategy) : Act Bool := do
  let ttl ← look fun h => ttlMs.getD h.cache.defaultTtlMs
  let remember : Act Unit := changeCache fun now c => c.remember key v ttl .memory now
  let ok ← match strategy with
    | .cacheAside => do
      remember
      writeThrough key v ttl
    | .writeThrough => do
      let ok ← writeThrough key v ttl
      remember
      pure ok
    | .writeBehind => do
      remember
      scheduleWrite key v ttl
      pure true
  changeCache fun _ c => c.count fun m => m.set.sample
  if ok then changeCache fun _ c => (c.publish (.set key strategy)).offerTrigger key
  return ok

/-- Stores a value by a strategy once it is serialized. A value that cannot be serialized counts as
an error and is stored nowhere: no write, sample, event or trigger. -/
def set (key : String) (serialized : Except CacheError ByteArray) (ttlMs : Option Nat)
    (strategy : WriteStrategy) : Act Bool :=
  match serialized with
  | .error _ => do
    changeCache fun _ c => c.count Metrics.error
    return false
  | .ok v => setRaw key v ttlMs strategy

/-- Writes the JSON text of a value by a strategy. -/
def setJson (key : String) (v : Json) (ttlMs : Option Nat) (strategy : WriteStrategy) : Act Bool :=
  setRaw key v.render.toUTF8 ttlMs strategy

/-- A write-behind job: waits for its turn and a free permit, writes to the distributed tier,
gives the permit back, and counts a failure. -/
def writeBehindJob (key : String) (frame : ByteArray) (ttlMs : Nat) (ticket : Nat) : Act Unit := do
  Fiber.waitUntil fun h => h.cache.writeBehind.serving == ticket && h.cache.writeBehind.permits > 0
  changeCache fun _ c =>
    { c with writeBehind := { c.writeBehind with permits := c.writeBehind.permits - 1,
                                                 serving := c.writeBehind.serving + 1 } }
  let r ← tierSet key frame ttlMs
  changeCache fun _ c => { c with writeBehind := { c.writeBehind with permits := c.writeBehind.permits + 1 } }
  if !r.toBool then changeCache fun _ c => c.count Metrics.writeBehindFailure
  changeCache fun _ c => { c with writeBehind := { c.writeBehind with pending := c.writeBehind.pending - 1 } }

/-- Waits until no write-behind write is pending. -/
def flush : Act Unit := Fiber.waitUntil fun h => h.cache.writeBehind.pending == 0

/-- Removes a key from both tiers; false only when the distributed removal failed. The removal is
counted and published either way. -/
def delete (key : String) : Act Bool := do
  changeCache fun _ c => (c.onMemory fun m k => m.delete k key).2
  let ok ← if ← memoryOnly then pure true else do pure (← tierDelete key).toBool
  changeCache fun _ c => (c.count Metrics.delete).publish (.delete key)
  return ok

/-- Removes the keys a glob matches from both tiers: the live memory entries removed plus the
distributed removals, a failed distributed removal counting none. Published either way. -/
def invalidate (pattern : String) : Act Nat := do
  let here ← onCache fun now c => c.onMemory fun m k => m.removeMatching k pattern now
  let there ← if ← memoryOnly then pure 0 else do pure (((← tierDeleteMatching pattern).toOption).getD 0)
  changeCache fun _ c => c.publish (.invalidate pattern (here + there))
  return here + there

/-- Drops the expired entries of the memory tier; how many. -/
def sweep : Act Nat := onCache fun now c => c.onMemory fun m k => m.sweep k now

/-- Empties the memory tier; the distributed tier keeps what it holds. -/
def clearLocal : Act Unit := changeCache fun _ c => (c.onMemory fun m k => ((), m.clear k)).2

/-- Whether the distributed tier answers a ping; `none` in memory-only mode. -/
def ping : Act (Option Bool) := do
  if ← memoryOnly then return none
  return some (← callTier .ping).toBool

end Act

end TierCache
