import TierCache.Glob
import TierCache.Error

/-!
# The in-process backend

A stand-in for the remote store: frames with an expiry time, counters of the calls made, and two
faults that can be switched on: a delay on every call and a failure of every call. A call is
counted when it starts, then waits out the delay, then fails if failure is switched on, and only
then acts on the store at the time it finishes (`act`).
-/

namespace TierCache

/-- How many calls of each kind the backend has started. -/
structure BackendStats where
  reads : Nat := 0
  writes : Nat := 0
  deletes : Nat := 0
  scans : Nat := 0
  deriving Repr, Inhabited, DecidableEq

/-- A stored frame and the time it expires. -/
structure StoredFrame where
  frame : ByteArray
  expires : Nat
  deriving Inhabited

/-- The in-process backend. -/
structure Backend where
  store : List (String × StoredFrame) := []
  failing : Bool := false
  latency : Option Nat := none
  stats : BackendStats := {}
  deriving Inhabited

/-- The kinds of call the backend serves. -/
inductive BackendCall where
  | get (key : String)
  | setex (key : String) (frame : ByteArray) (ttlMs : Nat)
  | delete (key : String)
  | deleteMatching (pattern : String)
  | ping

/-- What a call answers when it goes through. -/
inductive BackendReply where
  | frame (f : Option ByteArray)
  | done
  | removed (existed : Bool)
  | count (n : Nat)
  deriving Inhabited

namespace BackendCall

/-- The name a timed-out call is reported under. -/
def operation : BackendCall → String
  | get _ => "get"
  | setex .. => "setex"
  | delete _ => "delete"
  | deleteMatching _ => "scan"
  | ping => "ping"

/-- Counts the call as started. -/
def count (c : BackendCall) (s : BackendStats) : BackendStats :=
  match c with
  | get _ => { s with reads := s.reads + 1 }
  | setex .. => { s with writes := s.writes + 1 }
  | delete _ => { s with deletes := s.deletes + 1 }
  | deleteMatching _ => { s with scans := s.scans + 1 }
  | ping => s

end BackendCall

namespace Backend

/-- The stored frame under a key, expired or not. -/
def raw (b : Backend) (key : String) : Option ByteArray := (b.store.lookup key).map (·.frame)

/-- Whether an unexpired frame is stored under a key at `now`. -/
def contains (b : Backend) (key : String) (now : Nat) : Bool :=
  match b.store.lookup key with
  | some s => decide (s.expires > now)
  | none => false

/-- Stored keys, expired ones included. -/
def size (b : Backend) : Nat := b.store.length

/-- The store without a key. -/
def without (b : Backend) (key : String) : Backend :=
  { b with store := b.store.filter (·.1 != key) }

/-- What a call does to the store at the time `now` it goes through. -/
def act (b : Backend) (call : BackendCall) (now : Nat) : Backend × BackendReply :=
  match call with
  | .get key =>
    match b.store.lookup key with
    | some s => if s.expires > now then (b, .frame (some s.frame)) else (b.without key, .frame none)
    | none => (b, .frame none)
  | .setex key frame ttlMs =>
    ({ b.without key with store := (b.without key).store ++ [(key, ⟨frame, now + ttlMs⟩)] }, .done)
  | .delete key => (b.without key, .removed (b.store.lookup key).isSome)
  | .deleteMatching pattern =>
    let doomed := b.store.filter fun (k, _) => globMatch pattern k
    (doomed.foldl (fun b (k, _) => b.without k) b, .count doomed.length)
  | .ping => (b, .done)

end Backend

end TierCache
