import TierCache.Glob
import TierCache.Store.Metrics

/-!
# The memory tier

A bounded map from keys to items with a time to live. An item is expired once the clock reaches
its creation time plus its time to live; expired items are dropped when they are read and by a
sweep. When a new key arrives at a full tier, the oldest tenth (rounded up) is evicted first,
oldest meaning the least recent last read, or creation for items never read, with a logical
clock that ticks on every write and every read to break ties.

The tier reports expirations, evictions and its occupancy to the cache's counters, so each
operation takes and returns them.
-/

namespace TierCache

/-- Where a resident item came from. -/
inductive Origin where
  /-- Written by a local set. -/
  | memory
  /-- Brought in by a hit on the distributed tier. -/
  | distributed
  deriving Repr, DecidableEq, Inhabited

/-- The origin's name in reports. -/
def Origin.name : Origin → String
  | .memory => "memory"
  | .distributed => "distributed"

/-- A resident item. Times are milliseconds on the cache's clock. -/
structure Item where
  value : ByteArray
  created : Nat
  expires : Nat
  accessCount : Nat := 0
  lastAccessed : Option Nat := none
  /-- The logical clock at the item's last write or read. -/
  recency : Nat := 0
  origin : Origin
  deriving Inhabited

namespace Item

/-- A new item; a time to live under one millisecond is raised to one, so an item always outlives
its creation instant. -/
def create (value : ByteArray) (ttlMs : Nat) (origin : Origin) (now : Nat) : Item :=
  { value, created := now, expires := now + max ttlMs 1, origin }

/-- The footprint counted for the item: its value's length. -/
def size (i : Item) : Nat := i.value.size

/-- Whether the item has expired at `now`. -/
def expiredAt (i : Item) (now : Nat) : Bool := now ≥ i.expires

/-- The lifetime left at `now`, zero once expired. -/
def remaining (i : Item) (now : Nat) : Nat := i.expires - now

/-- The item's age for eviction: its last read, or its creation, then the logical clock. -/
def rank (i : Item) : Nat × Nat := (i.lastAccessed.getD i.created, i.recency)

/-- Whether `a` is evicted no later than `b`. -/
def rankLE (a b : Item) : Bool :=
  let (ta, ra) := a.rank
  let (tb, rb) := b.rank
  ta < tb || (ta == tb && ra ≤ rb)

end Item

/-- The memory tier: its items, the bytes they hold, the logical clock and the capacity. -/
structure MemoryTier where
  items : List (String × Item) := []
  bytes : Nat := 0
  clock : Nat := 0
  /-- Entries the tier holds at most; at least one. -/
  capacity : Nat
  deriving Inhabited

namespace MemoryTier

/-- An empty tier; a capacity of zero acts as one. -/
def create (capacity : Nat) : MemoryTier := { capacity := max capacity 1 }

/-- The item stored under a key, expired or not. -/
def find? (t : MemoryTier) (key : String) : Option Item := t.items.lookup key

/-- The tier without a key, its bytes adjusted. -/
def drop (t : MemoryTier) (key : String) : MemoryTier :=
  match t.find? key with
  | some item => { t with items := t.items.filter (·.1 != key), bytes := t.bytes - item.size }
  | none => t

/-- Resident keys, expired ones included. -/
def keys (t : MemoryTier) : List String := t.items.map (·.1)

/-- Resident entries, expired ones included. -/
def size (t : MemoryTier) : Nat := t.items.length

/-- Reports the tier's occupancy to the counters. -/
def publish (t : MemoryTier) (m : Metrics) : Metrics := m.occupancy t.size t.bytes

/-- Reads a key, recording the read. An expired item is dropped, counted as an expiration, and
read as absent. -/
def get (t : MemoryTier) (m : Metrics) (key : String) (now : Nat) :
    Option ByteArray × MemoryTier × Metrics :=
  match t.find? key with
  | none => (none, t, m)
  | some item =>
    if item.expiredAt now then
      let t := t.drop key
      (none, t, t.publish (m.expired 1))
    else
      let tick := t.clock + 1
      let item : Item :=
        { item with accessCount := item.accessCount + 1, lastAccessed := some now, recency := tick }
      let items := t.items.map fun (k, i) => if k == key then (k, item) else (k, i)
      (some item.value, { t with clock := tick, items }, m)

/-- The live item under a key, without recording a read. -/
def peek (t : MemoryTier) (key : String) (now : Nat) : Option Item :=
  (t.find? key).filter fun item => !item.expiredAt now

/-- Whether a live item is stored under a key. -/
def contains (t : MemoryTier) (key : String) (now : Nat) : Bool := (t.peek key now).isSome

/-- Evicts the oldest tenth of the entries, rounded up; returns how many went. -/
def evictOldest (t : MemoryTier) (m : Metrics) : Nat × MemoryTier × Metrics :=
  let count := (t.size + 9) / 10
  if count == 0 then (0, t, m) else
  let doomed := ((t.items.mergeSort fun a b => Item.rankLE a.2 b.2).take count).map (·.1)
  (count, doomed.foldl drop t, m.evicted count)

/-- Stores a value under a key, replacing what was there. A new key at a full tier first evicts
the oldest entries; returns how many were evicted. -/
def set (t : MemoryTier) (m : Metrics) (key : String) (value : ByteArray) (ttlMs : Nat)
    (origin : Origin) (now : Nat) : Nat × MemoryTier × Metrics :=
  let item := Item.create value ttlMs origin now
  let (evicted, t, m) :=
    if (t.find? key).isNone && t.size ≥ t.capacity then evictOldest t m else (0, t, m)
  let tick := t.clock + 1
  let item := { item with recency := tick }
  let t := t.drop key
  let t := { t with clock := tick, items := t.items ++ [(key, item)], bytes := t.bytes + item.size }
  (evicted, t, t.publish m)

/-- Removes a key; whether it was there. -/
def delete (t : MemoryTier) (m : Metrics) (key : String) : Bool × MemoryTier × Metrics :=
  if (t.find? key).isSome then
    let t := t.drop key
    (true, t, t.publish m)
  else (false, t, m)

/-- Removes every key the glob matches. Only the live ones are counted; expired matches go too
but are not counted as expirations. -/
def removeMatching (t : MemoryTier) (m : Metrics) (pattern : String) (now : Nat) :
    Nat × MemoryTier × Metrics :=
  let doomed := t.items.filter fun (k, _) => globMatch pattern k
  if doomed.isEmpty then (0, t, m) else
  let t' := doomed.foldl (fun t (k, _) => t.drop k) t
  ((doomed.filter fun (_, i) => !i.expiredAt now).length, t', t'.publish m)

/-- Drops every expired item; returns how many. -/
def sweep (t : MemoryTier) (m : Metrics) (now : Nat) : Nat × MemoryTier × Metrics :=
  let expired := t.items.filter fun (_, i) => i.expiredAt now
  if expired.isEmpty then (0, t, m) else
  let t := expired.foldl (fun t (k, _) => t.drop k) t
  (expired.length, t, t.publish (m.expired expired.length))

/-- Removes everything. -/
def clear (t : MemoryTier) (m : Metrics) : MemoryTier × Metrics :=
  let t := { t with items := [], bytes := 0 }
  (t, t.publish m)

end MemoryTier

end TierCache
