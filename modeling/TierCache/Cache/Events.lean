import TierCache.Store.WriteStrategy
/-!
# What the cache tells its followers

Every completed write, removal and invalidation is published as an event. A follower reads the
events in the order they were published; it holds at most `eventBuffer` of them unread, and when
more arrive the oldest are lost, which the follower learns as a count on its next read.

Keys that were written can also be offered to a bounded queue of warming triggers. An offer to a
full queue is refused, so the writer can count it as dropped; once the queue's reader is gone,
offers vanish without being refused.
-/

namespace TierCache

/-- A completed change of the cache. -/
inductive CacheEvent where
  /-- A value was written under `key`. -/
  | set (key : String) (strategy : WriteStrategy)
  /-- `key` was removed from both tiers. -/
  | delete (key : String)
  /-- The keys matching `pattern` were removed; `removed` counts them over both tiers. -/
  | invalidate (pattern : String) (removed : Nat)
  deriving Repr

namespace CacheEvent

/-- The kind of change, in lowercase. -/
def kind : CacheEvent → String
  | set .. => "set"
  | delete _ => "delete"
  | invalidate .. => "invalidate"

/-- The key or pattern the change concerns. -/
def subject : CacheEvent → String
  | set key _ => key
  | delete key => key
  | invalidate pattern _ => pattern

end CacheEvent

/-- How many unread events a follower holds. -/
def eventBuffer : Nat := 1024

/-- A follower's unread events. -/
structure EventFeed where
  /-- Oldest first, at most `eventBuffer` of them. -/
  unread : List CacheEvent := []
  /-- Events lost since the last read. -/
  missed : Nat := 0
  deriving Repr

namespace EventFeed

/-- Delivers an event; past the buffer, the oldest unread one is lost. -/
def publish (f : EventFeed) (e : CacheEvent) : EventFeed :=
  let unread := f.unread ++ [e]
  if unread.length > eventBuffer then { unread := unread.drop 1, missed := f.missed + 1 }
  else { f with unread }

/-- Reads everything: the number of events lost, if any, then the unread events in order. -/
def take (f : EventFeed) : Option Nat × List CacheEvent × EventFeed :=
  ((if f.missed > 0 then some f.missed else none), f.unread, {})

end EventFeed

/-- A bounded queue of written keys waiting to trigger warming. -/
structure TriggerQueue where
  /-- Oldest first. -/
  keys : List String := []
  capacity : Nat
  /-- Whether the reader is gone. -/
  closed : Bool := false
  deriving Repr

namespace TriggerQueue

/-- Offers a key: queued when there is room, vanished when the reader is gone, and refused
(`none`) when the queue is full. -/
def offer (q : TriggerQueue) (key : String) : Option TriggerQueue :=
  if q.closed then some q
  else if q.keys.length < q.capacity then some { q with keys := q.keys ++ [key] }
  else none

/-- Takes every queued key. -/
def takeAll (q : TriggerQueue) : List String × TriggerQueue := (q.keys, { q with keys := [] })

/-- Takes the oldest key, if any. -/
def pop? (q : TriggerQueue) : Option (String × TriggerQueue) :=
  match q.keys with
  | [] => none
  | k :: rest => some (k, { q with keys := rest })

end TriggerQueue

end TierCache
