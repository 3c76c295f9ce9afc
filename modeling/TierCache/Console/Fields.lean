import TierCache.Json.Write
import TierCache.Error

/-!
# Requests and answers of the JSON console

The console takes one JSON request per line and gives one JSON answer: `{"result": v}` when the
request ran, `{"error": kind, "message": text}` when it failed. This module reads the fields of a
request and writes the common shapes of an answer. Byte strings travel as lowercase hex; a field
`X` that takes bytes may also be given as text (its UTF-8 bytes), which wins over `X_hex`.
-/

namespace TierCache

/-- The name of an error's kind in answers. -/
def CacheError.kind : CacheError → String
  | .config _ => "Config"
  | .io _ => "Io"
  | .serialization _ => "Serialization"
  | .yaml _ => "Yaml"
  | .compressionFailed .. => "CompressionFailed"
  | .decompressionFailed .. => "DecompressionFailed"
  | .invalidFrame _ => "InvalidFrame"
  | .backend _ => "Backend"
  | .redis _ => "Redis"
  | .timeout .. => "Timeout"
  | .circuitOpen => "CircuitOpen"
  | .warming .. => "Warming"
  | .dataSource _ => "DataSource"
  | .training _ => "Training"
  | .metrics _ => "Metrics"
  | .internal _ => "Internal"

namespace Console

/-- The value of a hex digit. -/
def hexDigit (c : Char) : Option Nat :=
  if '0' ≤ c && c ≤ '9' then some (c.toNat - 48)
  else if 'a' ≤ c && c ≤ 'f' then some (c.toNat - 87)
  else if 'A' ≤ c && c ≤ 'F' then some (c.toNat - 55)
  else none

/-- The bytes a hex string spells; `none` for an odd length or a stray character. -/
def unhex : List Char → Option (List UInt8)
  | [] => some []
  | a :: b :: rest => do
    let x ← hexDigit a
    let y ← hexDigit b
    let r ← unhex rest
    pure ((x * 16 + y).toUInt8 :: r)
  | _ => none

/-- Bytes as lowercase hex. -/
def hex (bs : ByteArray) : String := String.join (bs.toList.map fun b => hexByte b.toNat)

/-- A string member. -/
def str? (j : Json) (k : String) : Option String :=
  match j.get? k with
  | some (.str s) => some s
  | _ => none

/-- A natural-number member. -/
def nat? (j : Json) (k : String) : Option Nat :=
  match j.get? k with
  | some (.num (.nat n)) => some n
  | _ => none

/-- An integer member. -/
def int? (j : Json) (k : String) : Option Int :=
  match j.get? k with
  | some (.num (.nat n)) => some n
  | some (.num (.neg n)) => some n
  | _ => none

/-- A boolean member. -/
def bool? (j : Json) (k : String) : Option Bool :=
  match j.get? k with
  | some (.bool b) => some b
  | _ => none

/-- A list member. -/
def list? (j : Json) (k : String) : Option (List Json) :=
  match j.get? k with
  | some (.arr xs) => some xs
  | _ => none

/-- A list of strings. -/
def strings? (j : Json) (k : String) : Option (List String) :=
  (list? j k).bind fun xs => xs.mapM fun
    | .str s => some s
    | _ => none

/-- Bytes given as text (`k`) or as hex (`k_hex`); the text wins. -/
def bytes? (j : Json) (k : String) : Option ByteArray :=
  match str? j k with
  | some s => some s.toUTF8
  | none => (str? j (k ++ "_hex")).bind fun h => (unhex h.toList).map List.toByteArray

/-- The answer of a request that ran. -/
def ok (v : Json) : Json := .obj [("result", v)]

/-- The answer of a request that failed. -/
def fail (kind msg : String) : Json := .obj [("error", .str kind), ("message", .str msg)]

/-- The answer when a request lacks a field it needs or names an unknown operation. -/
def badInput (msg : String) : Json := fail "BadInput" msg

/-- The answer of a cache error. -/
def failWith (e : CacheError) : Json := fail e.kind e.message

/-- An answer from a result. -/
def ofExcept (r : Except CacheError Json) : Json :=
  match r with
  | .ok v => ok v
  | .error e => failWith e

/-- A step's answer inside a list: its value, or the error object in its slot. -/
def stepAnswer (r : Except CacheError Json) : Json :=
  match r with
  | .ok v => v
  | .error e => .obj [("error", .str e.kind), ("message", .str e.message)]

/-- Hex bytes or `null`. -/
def hexOrNull (o : Option ByteArray) : Json :=
  match o with
  | some b => .str (hex b)
  | none => .null

/-- Strings in byte order. -/
def sortStrings (xs : List String) : List String := xs.mergeSort fun a b => decide (a ≤ b)

/-- Runs the steps of a stateful request in order, each seeing the state the one before left. -/
def runSteps {σ : Type} (step : σ → Json → Json × σ) : σ → List Json → List Json
  | _, [] => []
  | s, j :: rest =>
    let (answer, s) := step s j
    answer :: runSteps step s rest

/-- Runs the steps of a stateful request in order, like `runSteps`, except that a step may halt
the whole request with a message, as the service does when a computation leaves its range. -/
def runHalting {σ : Type} (step : σ → Json → Except String (Json × σ)) : σ → List Json →
    Except String (List Json)
  | _, [] => .ok []
  | s, j :: rest => do
    let (answer, s) ← step s j
    return answer :: (← runHalting step s rest)

/-- The answer of a request that the service halted on. -/
def halted (msg : String) : Json := fail "panic" msg

end Console

end TierCache
