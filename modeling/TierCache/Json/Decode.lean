import TierCache.Json.Value
import TierCache.Json.Read
import TierCache.Decode.Mismatch
/-!
Typed reads of a JSON value that is already in memory: an integer of a given range, a double,
a string, a boolean, a name out of a closed list, and the members of a record. A read that fails
reports what it found and what it wanted, in the same words as a read of JSON text, but with no
place in it, since a value in memory has none.

A record is read member by member in key order, so when two members are wrong the first key
is the one reported; a required member that is absent is reported only after all present
members were read, in the order the record declares its fields.
-/

namespace TierCache

namespace Json

/-- What a value is called in a report. -/
def found : Json → Found
  | .null => .other "null"
  | .bool b => .bool b
  | .num (.nat n) => .unsigned n
  | .num (.neg n) => .signed n
  | .num (.float f) => JsonRead.jsonFloat f
  | .str s => .str s
  | .arr _ => .seq
  | .obj _ => .map

/-- An integer in `[0, limit]`, called `kind` in reports. A negative integer or one above the
limit has the right kind and the wrong value; anything else has the wrong kind. -/
def toUnsigned (kind : String) (limit : Nat) : Json → Except Mismatch Nat
  | .num (.nat n) => if n ≤ limit then .ok n else .error (.invalidValue (.unsigned n) kind)
  | .num (.neg n) => .error (.invalidValue (.signed n) kind)
  | j => .error (.invalidType j.found kind)

/-- An unsigned 64-bit integer. -/
def toU64 : Json → Except Mismatch Nat := toUnsigned "u64" (Nat.pow 2 64 - 1)

/-- An unsigned machine-word count. -/
def toUsize : Json → Except Mismatch Nat := toUnsigned "usize" (Nat.pow 2 64 - 1)

/-- An unsigned 32-bit integer. -/
def toU32 : Json → Except Mismatch Nat := toUnsigned "u32" (Nat.pow 2 32 - 1)

/-- An integer in `[lo, hi]`, called `kind` in reports. -/
def toSigned (kind : String) (lo hi : Int) : Json → Except Mismatch Int
  | .num (.nat n) => if (n : Int) ≤ hi then .ok n else .error (.invalidValue (.unsigned n) kind)
  | .num (.neg n) => if lo ≤ n then .ok n else .error (.invalidValue (.signed n) kind)
  | j => .error (.invalidType j.found kind)

/-- A double; an integer is taken as the nearest double. -/
def toF64 : Json → Except Mismatch Float
  | .num (.nat n) => .ok (Float.ofNat n)
  | .num (.neg n) => .ok (Float.ofInt n)
  | .num (.float f) => .ok f
  | j => .error (.invalidType j.found "f64")

/-- A boolean. -/
def toBool : Json → Except Mismatch Bool
  | .bool b => .ok b
  | j => .error (.invalidType j.found "a boolean")

/-- A string. -/
def toStr : Json → Except Mismatch String
  | .str s => .ok s
  | j => .error (.invalidType j.found "a string")

/-- An instant written as RFC 3339 text. -/
def toInstant : Json → Except Mismatch Instant
  | .str s => match TimeText.parse s with
    | .ok t => .ok t
    | .error e => .error (.custom e.message)
  | j => .error (.invalidType j.found "a formatted date and time string or a unix timestamp")

/-- One of the unit `names` of a closed list: written as the name, or as an object whose one
member is the name with `null` for its content. -/
def toName (names : List String) : Json → Except Mismatch String
  | .str s => if names.contains s then .ok s else .error (.unknownVariant s names)
  | .obj [(k, v)] =>
    if !names.contains k then .error (.unknownVariant k names)
    else match v with
      | .null => .ok k
      | other => .error (.invalidType other.found "unit variant")
  | .obj _ => .error (.invalidValue .map "map with a single key")
  | j => .error (.invalidType j.found "string or map")

/-- A list whose items are read by `item`; the first item that fails is reported. -/
def toList {α : Type} (item : Json → Except Mismatch α) : Json → Except Mismatch (List α)
  | .arr items => items.mapM item
  | j => .error (.invalidType j.found "a sequence")

/-- The members of a record called `name`; anything but an object has the wrong kind. -/
def members (name : String) : Json → Except Mismatch (List (String × Json))
  | .obj ms => .ok ms
  | j => .error (.invalidType j.found ("struct " ++ name))

/-- The report of a failed read, if it failed. -/
def faultOf {ε α : Type} : Except ε α → Option ε
  | .error e => some e
  | .ok _ => none

/-- The first member, in key order, whose value `check` rejects. -/
def memberFault (ms : List (String × Json)) (check : String → Json → Option Mismatch) :
    Option Mismatch :=
  ms.findSome? fun (k, v) => check k v

/-- A member read by `read`, or `default` when it is absent or `null`. -/
def readOr {α : Type} (ms : List (String × Json)) (key : String) (read : Json → Except Mismatch α)
    (default : α) : Except Mismatch α :=
  match ms.lookup key with
  | none | some .null => .ok default
  | some v => read v

/-- A member that may be absent: `none` when it is absent or `null`. -/
def readOpt {α : Type} (ms : List (String × Json)) (key : String) (read : Json → Except Mismatch α) :
    Except Mismatch (Option α) :=
  match ms.lookup key with
  | none | some .null => .ok none
  | some v => some <$> read v

/-- A member that must be there. -/
def readReq {α : Type} (ms : List (String × Json)) (key : String) (read : Json → Except Mismatch α) :
    Except Mismatch α :=
  match ms.lookup key with
  | none => .error (.missingField key)
  | some v => read v

end Json

end TierCache
