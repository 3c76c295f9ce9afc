import TierCache.Time.Instant
import TierCache.Json.Value
/-!
# The data source

A read-only view of the application's records, which warming reads and never writes: users
with their last activity and saved preferences, record summaries, and two counts. Every query is
counted; a source set to fail refuses every query.
-/

namespace TierCache

/-- A user and the user's last activity. -/
structure Activity where
  userId : String
  lastActive : Instant
  /-- Saved preferences: locations, titles, skills. -/
  preferences : List String := []
  deriving Repr, Inhabited

/-- A record that can be warmed. -/
structure RecordSummary where
  id : String
  title : String
  body : String
  deriving Repr, Inhabited

/-- Everything warmed for one user. -/
structure UserSnapshot where
  userId : String
  profile : Json
  applications : List Json := []
  recommendations : List String
  deriving Inhabited

/-- A source of fixed data. -/
structure DataSource where
  users : List Activity := []
  records : List RecordSummary := []
  popularSearches : Nat := 0
  unembeddedRecords : Nat := 0
  failing : Bool := false
  /-- Queries served so far, refused ones included. -/
  queries : Nat := 0
  deriving Inhabited

/-- How a refused query reads. -/
def sourceFailure : String := "static source set to fail"

namespace DataSource

/-- Counts a query and refuses it when the source is set to fail. -/
def begin (s : DataSource) : Except String DataSource :=
  let s := { s with queries := s.queries + 1 }
  if s.failing then .error sourceFailure else .ok s

/-- The users active at or after `since`, most recent first; equally recent users keep their
order. -/
def recentlyActive (s : DataSource) (since : Instant) : List Activity :=
  (s.users.filter fun u => since ≤ u.lastActive).mergeSort fun a b => b.lastActive ≤ a.lastActive

/-- How many users were active at or after `since`. -/
def activeCount (s : DataSource) (since : Instant) : Nat :=
  s.users.countP fun u => since ≤ u.lastActive

/-- The newest records, at most `limit`. -/
def recentRecords (s : DataSource) (limit : Nat) : List RecordSummary := s.records.take limit

/-- What is warmed for a user: the profile, no applications, and the first ten records as
recommendations; an unknown user is refused. -/
def userSnapshot (s : DataSource) (user : String) : Except String UserSnapshot :=
  match s.users.find? (·.userId == user) with
  | none => .error ("unknown user '" ++ user ++ "'")
  | some u => .ok {
      userId := u.userId,
      profile := Json.ofMembers [("id", .str u.userId), ("last_active", .str u.lastActive.render),
        ("preferences", .arr (u.preferences.map .str))],
      recommendations := (s.records.take 10).map (·.id) }

end DataSource

end TierCache
