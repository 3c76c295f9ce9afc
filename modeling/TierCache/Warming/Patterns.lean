import TierCache.Time.Instant
import TierCache.Warming.Source
/-!
# Access patterns

Per user, the cache keeps a bounded window of access times (oldest first), the set of keys the
user touched, the hours of day the user is most often active, and the user's saved preferences.
The same time seen twice in a row is one access: a tracking pass that sees a user whose last
activity has not moved records nothing new.

Old history is pruned by a retention window of whole days; a user left with no access at all is
forgotten.
-/

namespace TierCache

/-- How many peak hours a pattern keeps. -/
def peakHourCount : Nat := 3

/-- Time arithmetic that leaves the calendar's range. -/
inductive TimeOverflow where
  /-- A span of days longer than the longest span the clock can hold. -/
  | daysOutOfBounds
  /-- An instant moved back past the earliest one the calendar holds. -/
  | subtractOverflow
  deriving Repr, DecidableEq

/-- The text of an overflow. -/
def TimeOverflow.message : TimeOverflow → String
  | .daysOutOfBounds => "TimeDelta::days out of bounds"
  | .subtractOverflow => "`DateTime - TimeDelta` overflowed"

/-- The longest span, in whole seconds, that the clock can hold: `2^63 - 1` milliseconds. -/
def maxSpanSeconds : Int := 9223372036854775

/-- A span of `days` whole days in seconds, if the clock can hold it. -/
def daysSpan (days : Int) : Except TimeOverflow Int :=
  let secs := days * 86400
  if secs > maxSpanSeconds || secs < -maxSpanSeconds then .error .daysOutOfBounds else .ok secs

/-- The instant `secs` seconds before `t`, if the calendar holds it. -/
def Instant.back (t : Instant) (secs : Int) : Except TimeOverflow Instant :=
  let u := t.addSeconds (-secs)
  if u.inRange then .ok u else .error .subtractOverflow

/-- One user's access history. -/
structure AccessPattern where
  userId : String
  /-- Oldest first. -/
  accesses : List Instant := []
  /-- Sorted, without repeats. -/
  keys : List String := []
  /-- The most frequent hours of day, most frequent first, the earlier hour first on ties. -/
  peakHours : List Nat := []
  preferences : List String := []
  deriving Repr, Inhabited

/-- Inserts a string into a sorted list without repeats. -/
def insertSorted (s : String) : List String → List String
  | [] => [s]
  | x :: rest => if s < x then s :: x :: rest else if s == x then x :: rest else x :: insertSorted s rest

/-- The hours of day among `times`, most frequent first and the earlier hour first on ties, at
most `peakHourCount` of them. -/
def busiestHours (times : List Instant) : List Nat :=
  let count (h : Nat) := times.countP fun t => t.hour == h
  let seen := (List.range 24).filter fun h => count h > 0
  let sorted := seen.mergeSort fun a b => count a > count b || (count a == count b && a ≤ b)
  sorted.take peakHourCount

namespace AccessPattern

/-- The latest access recorded, which is the last one appended. -/
def lastAccess (p : AccessPattern) : Option Instant := p.accesses.getLast?

/-- Appends an access unless it repeats the last one, keeping at most `limit` of the newest. -/
def record (p : AccessPattern) (limit : Nat) (time : Instant) : AccessPattern :=
  if p.lastAccess == some time then p
  else
    let acc := p.accesses ++ [time]
    let acc := acc.drop (acc.length - limit)
    { p with accesses := acc, peakHours := busiestHours acc }

/-- Drops the accesses before `cutoff` from the front of the window. -/
def prune (p : AccessPattern) (cutoff : Instant) : AccessPattern :=
  let kept := p.accesses.dropWhile fun t => t < cutoff
  if kept.length == p.accesses.length then p else { p with accesses := kept, peakHours := busiestHours kept }

end AccessPattern

/-- The access patterns of all users. -/
structure AccessTracker where
  /-- Sorted by user id, one per user. -/
  patterns : List AccessPattern := []
  /-- The most accesses a pattern keeps; at least one. -/
  historyLen : Nat
  /-- The retention window, in seconds. -/
  retentionSecs : Int
  deriving Repr, Inhabited

namespace AccessTracker

/-- A tracker with no user. The window and the retention are at least one access and one day;
a retention the clock cannot hold is refused. -/
def create (historyLen : Nat) (retentionDays : Int) : Except TimeOverflow AccessTracker := do
  let secs ← daysSpan (max retentionDays 1)
  return { historyLen := max historyLen 1, retentionSecs := secs }

/-- Applies `f` to the pattern of `user`, creating an empty one first when there is none. -/
def modify (t : AccessTracker) (user : String) (f : AccessPattern → AccessPattern) : AccessTracker :=
  let rec go : List AccessPattern → List AccessPattern
    | [] => [f { userId := user }]
    | p :: rest =>
      if user < p.userId then f { userId := user } :: p :: rest
      else if user == p.userId then f p :: rest
      else p :: go rest
  { t with patterns := go t.patterns }

/-- Records an access of `user` at `time`, and the key touched if there is one. -/
def recordAccess (t : AccessTracker) (user : String) (time : Instant) (key : Option String) :
    AccessTracker :=
  t.modify user fun p =>
    let p := p.record t.historyLen time
    match key with
    | some k => { p with keys := insertSorted k p.keys }
    | none => p

/-- Replaces the preferences of `user`. -/
def setPreferences (t : AccessTracker) (user : String) (prefs : List String) : AccessTracker :=
  t.modify user fun p => { p with preferences := prefs }

/-- Drops the accesses older than the retention window before `now`, then the users left with
none; answers how many users were dropped. -/
def prune (t : AccessTracker) (now : Instant) : Except TimeOverflow (Nat × AccessTracker) := do
  let cutoff ← now.back t.retentionSecs
  let pruned := t.patterns.map (·.prune cutoff)
  let kept := pruned.filter fun p => !p.accesses.isEmpty
  return (t.patterns.length - kept.length, { t with patterns := kept })

/-- How far back a refresh looks for active users: one hour. -/
def lookbackSecs : Int := 3600

/-- Records the users active within the lookback before `now`, most recent first: each one's
last activity is an access of the user's profile key, and non-empty preferences replace the
saved ones. Answers the number of users seen. -/
def refresh (t : AccessTracker) (users : List Activity) (now : Instant) :
    Except TimeOverflow (Nat × AccessTracker) := do
  let since ← now.back lookbackSecs
  let recent := (DataSource.mk users [] 0 0 false 0).recentlyActive since
  let t := recent.foldl (fun t u =>
    let t := t.recordAccess u.userId u.lastActive (some ("user:" ++ u.userId ++ ":profile"))
    if u.preferences.isEmpty then t else t.setPreferences u.userId u.preferences) t
  return (recent.length, t)

/-- The pattern of a user. -/
def get? (t : AccessTracker) (user : String) : Option AccessPattern :=
  t.patterns.find? (·.userId == user)

/-- All patterns in user-id order. -/
def snapshot (t : AccessTracker) : List AccessPattern := t.patterns

/-- The number of users tracked. -/
def size (t : AccessTracker) : Nat := t.patterns.length

end AccessTracker

end TierCache
