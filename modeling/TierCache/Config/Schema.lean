import TierCache.Config.Settings
import TierCache.Decode.Mismatch
import TierCache.Json.Read

/-!
# The settings' schema

Where each setting lives in a settings document, of what kind it is, and how it is stored once
read. The readers of both document formats walk this one schema: a document is a map of sections
and top-level settings; every member may be left out, and unknown members are passed over.
-/

namespace TierCache

/-- The kind of a single setting. -/
inductive SettingKind where
  /-- An unsigned integer no greater than `max`, called `name` in reports. -/
  | unsigned (name : String) (max : Nat)
  /-- A signed integer in `[min, max]`, called `name` in reports. -/
  | signed (name : String) (min max : Int)
  | bool
  | string
  /-- A string or nothing. -/
  | optString
  /-- A list of strings. -/
  | strings

namespace SettingKind

def u64 : SettingKind := .unsigned "u64" (Nat.pow 2 64 - 1)
def usize : SettingKind := .unsigned "usize" (Nat.pow 2 64 - 1)
def u32 : SettingKind := .unsigned "u32" (Nat.pow 2 32 - 1)
def i32 : SettingKind := .signed "i32" (-Int.pow 2 31) (Int.pow 2 31 - 1)
def i64 : SettingKind := .signed "i64" (-Int.pow 2 63) (Int.pow 2 63 - 1)

end SettingKind

/-- A single setting: its key, its kind, and how a value of that kind is stored. -/
structure SettingSpec where
  key : String
  kind : SettingKind
  put : CacheConfig → Json → CacheConfig

/-- A section of settings: its key, the name of its record, and its settings. -/
structure SectionSpec where
  key : String
  name : String
  fields : List SettingSpec

/-- A member of the top-level document. -/
inductive TopSpec where
  | setting (s : SettingSpec)
  | section (s : SectionSpec)

namespace Json

/-- The natural number in a value read as an unsigned setting. -/
def natD : Json → Nat
  | .num (.nat n) => n
  | _ => 0

/-- The integer in a value read as a signed setting. -/
def intD : Json → Int
  | .num (.nat n) => n
  | .num (.neg n) => n
  | _ => 0

/-- The boolean in a value read as a boolean setting. -/
def boolD : Json → Bool
  | .bool b => b
  | _ => false

/-- The string in a value read as an optional string setting. -/
def strOpt : Json → Option String
  | .str s => some s
  | _ => none

/-- The strings in a value read as a list setting. -/
def strsD : Json → List String
  | .arr xs => xs.filterMap strOpt
  | _ => []

end Json

namespace ConfigSchema

/-- The settings of the distributed section. -/
def distributed : SectionSpec := ⟨"distributed", "DistributedConfig", [
  ⟨"endpoints", .strings, fun c v => { c with distributed.endpoints := v.strsD }⟩,
  ⟨"credential", .optString, fun c v => { c with distributed.credential := v.strOpt }⟩,
  ⟨"request_timeout_ms", .u64, fun c v => { c with distributed.requestTimeoutMs := v.natD }⟩,
  ⟨"write_behind_concurrency", .usize, fun c v => { c with distributed.writeBehindConcurrency := v.natD }⟩]⟩

/-- The settings of the memory section. -/
def memory : SectionSpec := ⟨"memory", "MemoryConfig", [
  ⟨"capacity", .usize, fun c v => { c with memory.capacity := v.natD }⟩,
  ⟨"sweep_interval_secs", .u64, fun c v => { c with memory.sweepIntervalSecs := v.natD }⟩]⟩

/-- The settings of the compression section. -/
def compression : SectionSpec := ⟨"compression", "CompressionConfig", [
  ⟨"enabled", .bool, fun c v => { c with compression.enabled := v.boolD }⟩,
  ⟨"threshold_bytes", .usize, fun c v => { c with compression.thresholdBytes := v.natD }⟩,
  ⟨"level", .i32, fun c v => { c with compression.level := v.intD }⟩]⟩

/-- The settings of the circuit-breaker section. -/
def circuitBreaker : SectionSpec := ⟨"circuit_breaker", "CircuitBreakerConfig", [
  ⟨"failure_threshold", .u32, fun c v => { c with circuitBreaker.failureThreshold := v.natD }⟩,
  ⟨"recovery_timeout_secs", .u64, fun c v => { c with circuitBreaker.recoveryTimeoutSecs := v.natD }⟩]⟩

/-- The settings of the warming section. -/
def warming : SectionSpec := ⟨"warming", "WarmingConfig", [
  ⟨"enabled", .bool, fun c v => { c with warming.enabled := v.boolD }⟩,
  ⟨"interval_secs", .u64, fun c v => { c with warming.intervalSecs := v.natD }⟩,
  ⟨"max_concurrent_warms", .usize, fun c v => { c with warming.maxConcurrentWarms := v.natD }⟩,
  ⟨"trigger_queue_capacity", .usize, fun c v => { c with warming.triggerQueueCapacity := v.natD }⟩,
  ⟨"marker_ttl_secs", .u64, fun c v => { c with warming.markerTtlSecs := v.natD }⟩,
  ⟨"analysis_interval_secs", .u64, fun c v => { c with warming.analysisIntervalSecs := v.natD }⟩,
  ⟨"min_training_users", .usize, fun c v => { c with warming.minTrainingUsers := v.natD }⟩,
  ⟨"clusters", .usize, fun c v => { c with warming.clusters := v.natD }⟩,
  ⟨"history_len", .usize, fun c v => { c with warming.historyLen := v.natD }⟩,
  ⟨"retention_days", .i64, fun c v => { c with warming.retentionDays := v.intD }⟩,
  ⟨"max_predicted_users", .usize, fun c v => { c with warming.maxPredictedUsers := v.natD }⟩]⟩

/-- The record name of the whole document. -/
def name : String := "CacheConfig"

/-- The members of the whole document, in their declared order. -/
def top : List TopSpec := [
  .section distributed, .section memory,
  .setting ⟨"default_ttl_secs", .u64, fun c v => { c with defaultTtlSecs := v.natD }⟩,
  .section compression, .section circuitBreaker, .section warming,
  .setting ⟨"metrics_enabled", .bool, fun c v => { c with metricsEnabled := v.boolD }⟩,
  .setting ⟨"metrics_interval_secs", .u64, fun c v => { c with metricsIntervalSecs := v.natD }⟩]

end ConfigSchema

/-- The key of a top-level member. -/
def TopSpec.key : TopSpec → String
  | .setting s => s.key
  | .section s => s.key

/-! ### Reading settings from a JSON value -/

namespace JsonSettings

open JsonRead in
/-- How a JSON value is named in a report. -/
def found : Json → Found
  | .null => .other "null"
  | .bool b => .bool b
  | .num (.nat n) => .unsigned n
  | .num (.neg n) => .signed n
  | .num (.float f) => jsonFloat f
  | .str s => .str s
  | .arr _ => .seq
  | .obj _ => .map

/-- A string, or the report of what stands in its place. -/
def string (v : Json) : Except Mismatch Json :=
  match v with
  | .str _ => .ok v
  | other => .error (.invalidType (found other) "a string")

/-- A single setting read from a JSON value. -/
def setting (kind : SettingKind) (v : Json) : Except Mismatch Json :=
  match kind, v with
  | .unsigned name max, .num (.nat n) => if n ≤ max then .ok v else .error (.invalidValue (.unsigned n) name)
  | .unsigned name _, .num (.neg n) => .error (.invalidValue (.signed n) name)
  | .signed name _ max, .num (.nat n) => if (n : Int) ≤ max then .ok v else .error (.invalidValue (.unsigned n) name)
  | .signed name min _, .num (.neg n) => if min ≤ n then .ok v else .error (.invalidValue (.signed n) name)
  | .unsigned name _, other => .error (.invalidType (found other) name)
  | .signed name _ _, other => .error (.invalidType (found other) name)
  | .bool, .bool _ => .ok v
  | .bool, other => .error (.invalidType (found other) "a boolean")
  | .string, _ => string v
  | .optString, .null => .ok .null
  | .optString, _ => string v
  | .strings, .arr xs => do
    let ys ← xs.mapM string
    pure (.arr ys)
  | .strings, other => .error (.invalidType (found other) "a sequence")

/-- A record read from a JSON value: from an object member by member in key order, or from an
array element by element in declared order. Members left out keep their defaults. -/
def record {α : Type} (key : α → String) (one : α → Json → CacheConfig → Except Mismatch CacheConfig)
    (name : String) (entries : List α) (c : CacheConfig) (v : Json) : Except Mismatch CacheConfig :=
  match v with
  | .obj ms => ms.foldlM (fun c (k, x) =>
      match entries.find? (key · == k) with
      | some e => one e x c
      | none => pure c) c
  | .arr xs => do
    let c ← (entries.zip xs).foldlM (fun c (e, x) => one e x c) c
    if xs.length > entries.length then throw (.invalidLength xs.length "fewer elements in array")
    pure c
  | other => throw (.invalidType (found other) ("struct " ++ name))

/-- One setting of a section. -/
def sectionSetting (s : SettingSpec) (v : Json) (c : CacheConfig) : Except Mismatch CacheConfig := do
  let x ← setting s.kind v
  pure (s.put c x)

/-- One member of the whole document. -/
def topMember (t : TopSpec) (v : Json) (c : CacheConfig) : Except Mismatch CacheConfig :=
  match t with
  | .setting s => sectionSetting s v c
  | .section s => record (·.key) sectionSetting s.name s.fields c v

end JsonSettings

/-- Settings read from a JSON value; members left out keep their defaults. -/
def CacheConfig.ofJson (v : Json) : Except Mismatch CacheConfig :=
  JsonSettings.record TopSpec.key JsonSettings.topMember ConfigSchema.name ConfigSchema.top {} v

end TierCache
