import TierCache.Glob
import TierCache.Error
import TierCache.Time.Span
import TierCache.Text.Quote
import TierCache.Warming.Patterns
/-!
# Warming rules and their registry

A warming rule names a key pattern, how urgent it is, how often it may run, the conditions that
must hold before it runs, the patterns that must have been warmed before it, and what it does
when it runs. The registry holds at most one rule per pattern and hands them out most urgent
first, then by pattern.

When a rule last finished is kept in the cache itself, as a marker under `warming:last:` and the
pattern. A rule is eligible to run when it has no marker or its marker is at least one frequency
old, every condition holds, and every dependency has a marker; the first gate that fails is the
answer.
-/

namespace TierCache

/-- How urgent a rule is; rules are taken in this order. -/
inductive Priority where
  | critical
  | high
  | medium
  | low
  deriving Repr, DecidableEq, Inhabited

namespace Priority

/-- The lowercase name. -/
def name : Priority → String
  | critical => "critical"
  | high => "high"
  | medium => "medium"
  | low => "low"

/-- The capitalised name, as diagnostics write it. -/
def debug : Priority → String
  | critical => "Critical"
  | high => "High"
  | medium => "Medium"
  | low => "Low"

/-- The place in the order, most urgent first. -/
def rank : Priority → Nat
  | critical => 0
  | high => 1
  | medium => 2
  | low => 3

/-- The names of the priorities, most urgent first. -/
def names : List String := ["critical", "high", "medium", "low"]

/-- The priority of a lowercase name. -/
def ofName? : String → Option Priority
  | "critical" => some critical
  | "high" => some high
  | "medium" => some medium
  | "low" => some low
  | _ => none

end Priority

/-- A condition a rule needs. -/
inductive Condition where
  /-- The hour of day (UTC) is in `[start, stop)`, wrapping past midnight when `start > stop`. -/
  | businessHours (start stop : Nat)
  /-- At least `min` users were active in the last hour. -/
  | activeUsers (min : Nat)
  /-- At least `min` distinct search terms are popular. -/
  | popularSearches (min : Nat)
  /-- At least `min` records are not yet embedded. -/
  | newRecords (min : Nat)
  deriving Repr, DecidableEq, Inhabited

/-- Whether `hour` lies in `[start, stop)`, read around the clock when `start > stop`. -/
def withinHours (hour start stop : Nat) : Bool :=
  if start ≤ stop then start ≤ hour && hour < stop else start ≤ hour || hour < stop

namespace Condition

/-- The names of the condition kinds. -/
def kinds : List String := ["business_hours", "active_users", "popular_searches", "new_records"]

/-- The default business hours, nine to five. -/
def nineToFive : Condition := businessHours 9 17

/-- The short text of a condition: `business_hours(09-17 UTC)`, `active_users>=1`, … -/
def display : Condition → String
  | businessHours a b =>
    let two (n : Nat) := if n < 10 then "0" ++ toString n else toString n
    "business_hours(" ++ two a ++ "-" ++ two b ++ " UTC)"
  | activeUsers n => "active_users>=" ++ toString n
  | popularSearches n => "popular_searches>=" ++ toString n
  | newRecords n => "new_records>=" ++ toString n

/-- The diagnostic text of a condition: `ActiveUsers { min: 1 }`, … -/
def debug : Condition → String
  | businessHours a b => "BusinessHours \x7b start_hour: " ++ toString a ++ ", end_hour: " ++ toString b ++ " \x7d"
  | activeUsers n => "ActiveUsers \x7b min: " ++ toString n ++ " \x7d"
  | popularSearches n => "PopularSearches \x7b min: " ++ toString n ++ " \x7d"
  | newRecords n => "NewRecords \x7b min: " ++ toString n ++ " \x7d"

/-- Evaluates a condition against the source at `now`. Business hours need no query; every other
condition makes one, which the source may refuse. Looking an hour back from an instant near the
start of the calendar leaves its range. -/
def evaluate (c : Condition) (src : DataSource) (now : Instant) :
    Except TimeOverflow (Except String Bool × DataSource) :=
  let query (answer : DataSource → Nat) (min : Nat) : Except String Bool × DataSource :=
    match src.begin with
    | .ok src => (.ok (decide (answer src ≥ min)), src)
    | .error e => (.error e, { src with queries := src.queries + 1 })
  match c with
  | businessHours a b => .ok (.ok (withinHours now.hour a b), src)
  | activeUsers n => do
    let since ← now.back AccessTracker.lookbackSecs
    return query (·.activeCount since) n
  | popularSearches n => .ok (query (·.popularSearches) n)
  | newRecords n => .ok (query (·.unembeddedRecords) n)

end Condition

/-- What a scripted rule does when it runs: counts the call, then, unless it panics, sleeps,
writes each of `setKeys`, and fails with `fail` or reports `items` items warmed. -/
structure Script where
  items : Nat := 1
  fail : Option String := none
  setKeys : List String := []
  sleepMs : Nat := 0
  panic : Option String := none
  deriving Repr, Inhabited

/-- What a rule does when it runs. -/
inductive Refresh where
  /-- A scripted action. -/
  | scripted (s : Script)
  /-- Caches the ids of the users active in the last hour. -/
  | activeUsers
  /-- Caches the newest records. -/
  | recentRecords
  /-- Caches the profile, applications and recommendations of every active user. -/
  | activeProfiles
  deriving Repr, Inhabited

/-- A warming rule. -/
structure Rule where
  pattern : String
  priority : Priority
  frequencySecs : Nat
  conditions : List Condition := []
  dependencies : List String := []
  refresh : Refresh
  deriving Repr, Inhabited

namespace Rule

/-- Whether `a` comes before `b`: the more urgent first, then by pattern. -/
def before (a b : Rule) : Bool :=
  a.priority.rank < b.priority.rank || (a.priority.rank == b.priority.rank && a.pattern ≤ b.pattern)

/-- The diagnostic text of a rule, without its action. -/
def debug (r : Rule) : String :=
  "WarmingRule \x7b pattern: " ++ Quote.quote r.pattern ++ ", priority: " ++ r.priority.debug ++
    ", frequency: " ++ (Span.ofSecs r.frequencySecs).debug ++ ", conditions: [" ++
    ", ".intercalate (r.conditions.map Condition.debug) ++ "], dependencies: [" ++
    ", ".intercalate (r.dependencies.map Quote.quote) ++ "], .. \x7d"

end Rule

/-- The prefix of marker keys. -/
def markerPrefix : String := "warming:last:"

/-- The key of the marker of a pattern. -/
def markerKey (pattern : String) : String := markerPrefix ++ pattern

/-- The key of the list of active users, which is also the pattern of the rule that warms it. -/
def activeUsersKey : String := "users:active"

/-- The rules every deployment registers: the active users every fifteen minutes; the newest
records every half hour when some are not yet embedded; and every hour the profiles of the
active users, when there are some and the active users were warmed first. -/
def standardRules : List Rule :=
  [ { pattern := activeUsersKey, priority := .critical, frequencySecs := 900, refresh := .activeUsers },
    { pattern := "record:*", priority := .high, frequencySecs := 1800, conditions := [.newRecords 1],
      refresh := .recentRecords },
    { pattern := "user:*:profile", priority := .medium, frequencySecs := 3600,
      conditions := [.activeUsers 1], dependencies := [activeUsersKey], refresh := .activeProfiles } ]

/-- Why a rule may not run now. -/
inductive Eligibility where
  | eligible
  /-- The marker is younger than one frequency, or ahead of now. -/
  | tooSoon (last : Instant)
  /-- A condition does not hold, or could not be evaluated. -/
  | conditionUnmet (c : Condition)
  /-- A dependency has no marker. -/
  | dependencyUnmet (pattern : String)
  deriving Repr

/-- Whether a marker set at `last` is too recent at `now` for a rule run every `frequencySecs`:
younger than the frequency, or ahead of `now`. -/
def tooRecent (last now : Instant) (frequencySecs : Nat) : Bool :=
  now.nanos < last.nanos || now.nanos - last.nanos < frequencySecs * Instant.nanosPerSecond

/-- The registered rules, at most one per pattern. -/
structure Registry where
  /-- Sorted by pattern. -/
  rules : List Rule := []
  /-- How long a marker lives, in milliseconds. -/
  markerTtlMs : Nat
  deriving Repr, Inhabited

namespace Registry

/-- Adds a rule; refused when its pattern is taken or it depends on itself. -/
def register (g : Registry) (r : Rule) : Except CacheError Registry :=
  if g.rules.any (·.pattern == r.pattern) then
    .error (.config ("warming rule '" ++ r.pattern ++ "' already registered"))
  else if r.dependencies.contains r.pattern then
    .error (.config ("warming rule '" ++ r.pattern ++ "' depends on itself"))
  else
    let (before, after) := g.rules.span (·.pattern < r.pattern)
    .ok { g with rules := before ++ r :: after }

/-- Adds the standard rules in order, stopping at the first refusal. -/
def registerStandard (g : Registry) : Except CacheError Registry :=
  standardRules.foldlM register g

/-- The rule of a pattern. -/
def find? (g : Registry) (pattern : String) : Option Rule := g.rules.find? (·.pattern == pattern)

/-- All rules, most urgent first, then by pattern. -/
def ordered (g : Registry) : List Rule := g.rules.mergeSort Rule.before

/-- The rules whose pattern matches a key, in rule order. -/
def matching (g : Registry) (key : String) : List Rule :=
  g.ordered.filter fun r => globMatch r.pattern key

/-- How many rules there are. -/
def size (g : Registry) : Nat := g.rules.length

end Registry

end TierCache
