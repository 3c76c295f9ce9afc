import TierCache.Console.Activity
import TierCache.Console.Reports
import TierCache.Warming.Scheduler
import TierCache.Cache.Events
/-!
# Console forms of warming rules, events and sources

How the console reads warming conditions, rules and data sources, and how it writes conditions,
rules, eligibility, warming statistics and cache events.

A condition is an object tagged by `kind` (`business_hours` with `start_hour` and `end_hour`,
or `active_users`, `popular_searches`, `new_records` with `min`), or the bare name
`business_hours` for nine to five. Its members are read in key order, and a missing one is
reported after them, as for any record.
-/

namespace TierCache

namespace Console

open Json

/-- A condition. -/
def conditionOfJson : Json → Except Mismatch Condition
  | .str "business_hours" => .ok Condition.nineToFive
  | .obj ms => do
    let kind ← match ms.lookup "kind" with
      | none => throw (Mismatch.missingField "kind")
      | some (.str k) => if Condition.kinds.contains k then pure k else throw (.unknownVariant k Condition.kinds)
      | some v => throw (.invalidType v.found "variant identifier")
    let rest := ms.filter (·.1 != "kind")
    if kind == "business_hours" then
      let bad := memberFault rest fun k v => match k with
        | "start_hour" | "end_hour" => faultOf (toU32 v)
        | _ => none
      if let some m := bad then throw m
      return .businessHours (← readReq rest "start_hour" toU32) (← readReq rest "end_hour" toU32)
    else
      let bad := memberFault rest fun k v => if k == "min" then faultOf (toU64 v) else none
      if let some m := bad then throw m
      let n ← readReq rest "min" toU64
      return match kind with
        | "active_users" => .activeUsers n
        | "popular_searches" => .popularSearches n
        | _ => .newRecords n
  | j => .error (.invalidType j.found "internally tagged enum WarmingCondition")

/-- A condition as it is serialized. -/
def conditionJson : Condition → Json
  | .businessHours a b => Json.ofMembers [("kind", .str "business_hours"), ("start_hour", Json.ofNat a),
      ("end_hour", Json.ofNat b)]
  | .activeUsers n => Json.ofMembers [("kind", .str "active_users"), ("min", Json.ofNat n)]
  | .popularSearches n => Json.ofMembers [("kind", .str "popular_searches"), ("min", Json.ofNat n)]
  | .newRecords n => Json.ofMembers [("kind", .str "new_records"), ("min", Json.ofNat n)]

/-- A scripted rule: the pattern is required; the priority defaults to medium, the frequency to
sixty seconds, the action to warming one item. -/
def ruleOfJson (j : Json) : Except String Rule := do
  let pattern ← match str? j "pattern" with
    | some p => pure p
    | none => throw "rule needs a pattern"
  let priority ← match str? j "priority" with
    | none => pure Priority.medium
    | some p => match Priority.ofName? p with
      | some p => pure p
      | none => throw ("unknown priority '" ++ p ++ "'")
  let conditions ← match (list? j "conditions").getD [] |>.mapM conditionOfJson with
    | .ok cs => pure cs
    | .error m => throw ("bad condition: " ++ m.message)
  let script : Script :=
    { items := (nat? j "items").getD 1, fail := str? j "fail", setKeys := (strings? j "set_keys").getD [],
      sleepMs := (nat? j "sleep_ms").getD 0, panic := str? j "panic" }
  return { pattern, priority, frequencySecs := (nat? j "frequency_secs").getD 60, conditions,
           dependencies := (strings? j "dependencies").getD [], refresh := .scripted script }

/-- A rule as the rule list shows it. -/
def ruleJson (r : Rule) : Json :=
  Json.ofMembers [("pattern", .str r.pattern), ("priority", .str r.priority.name),
    ("frequency_secs", Json.ofNat r.frequencySecs),
    ("conditions", .arr (r.conditions.map fun c => .str c.display)),
    ("dependencies", .arr (r.dependencies.map .str))]

/-- An eligibility answer. -/
def eligibilityJson : Eligibility → Json
  | .eligible => Json.ofMembers [("eligible", .bool true)]
  | .tooSoon last => Json.ofMembers [("too_soon", .str last.render)]
  | .conditionUnmet c => Json.ofMembers [("condition_unmet", conditionJson c), ("display", .str c.display)]
  | .dependencyUnmet p => Json.ofMembers [("dependency_unmet", .str p)]

/-- Warming statistics. -/
def statsJson (s : WarmingStats) : Json :=
  Json.ofMembers [("total_items_warmed", Json.ofNat s.totalItemsWarmed),
    ("average_warming_duration_ms", Json.ofFloat s.averageDurationMs),
    ("active_tasks", Json.ofNat s.activeTasks), ("registered_rules", Json.ofNat s.registeredRules),
    ("tracked_patterns", Json.ofNat s.trackedPatterns), ("runs", Json.ofNat s.runs),
    ("failures", Json.ofNat s.failures), ("skipped_busy", Json.ofNat s.skippedBusy),
    ("triggers_received", Json.ofNat s.triggersReceived),
    ("predicted_users_warmed", Json.ofNat s.predictedUsersWarmed),
    ("analysis_passes", Json.ofNat s.analysisPasses), ("predictor_trained", .bool s.predictorTrained)]

/-- A cache event, with `timestamp_ok` when time stamps are asked for. -/
def eventJson (stamps : Bool) (e : CacheEvent) : Json :=
  let own : List (String × Json) := match e with
    | .set key s => [("type", .str "Set"), ("key", .str key), ("strategy", .str s.name)]
    | .delete key => [("type", .str "Delete"), ("key", .str key)]
    | .invalidate p n => [("type", .str "Invalidate"), ("pattern", .str p), ("removed", Json.ofNat n)]
  Json.ofMembers (own ++ [("event_type", .str e.kind), ("subject", .str e.subject)] ++
    (if stamps then [("timestamp_ok", .bool true)] else []))

/-- A record: id, title and body, all text. -/
def recordOfJson (j : Json) : Except Mismatch RecordSummary := do
  let ms ← members "RecordSummary" j
  let bad := memberFault ms fun k v => match k with
    | "id" | "title" | "body" => faultOf (toStr v)
    | _ => none
  if let some m := bad then throw m
  return { id := ← readReq ms "id" toStr, title := ← readReq ms "title" toStr, body := ← readReq ms "body" toStr }

/-- A data source with the parts a request gives replaced. -/
def sourceWith (s : DataSource) (j : Json) : Except String DataSource := do
  let ms := match j with
    | .obj ms => ms
    | _ => []
  let users ← (readOpt ms "users" (toList activityOfJson)).mapError fun m => "bad users: " ++ m.message
  let records ← (readOpt ms "records" (toList recordOfJson)).mapError fun m => "bad records: " ++ m.message
  return { s with
    users := users.getD s.users, records := records.getD s.records,
    popularSearches := (nat? j "popular_searches").getD s.popularSearches,
    unembeddedRecords := (nat? j "unembedded_records").getD s.unembeddedRecords,
    failing := (bool? j "failing").getD s.failing }

end Console

end TierCache
