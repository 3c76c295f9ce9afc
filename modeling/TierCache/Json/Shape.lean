import TierCache.Json.Read
/-!
Reading JSON text as a given shape of data: any value, an integer of a given range, a double,
a string, a boolean, a list of strings, a record summary, or a date-time. The result is the data
as a JSON value again, in its normal form (a date-time as UTC text with `Z`).
-/

namespace TierCache

/-- The shapes that JSON text can be read as. -/
inductive Shape where
  | value | u64 | i64 | u8 | f64 | string | bool | strings | record | datetime
  deriving Repr, DecidableEq, Inhabited

namespace JsonRead

/-- What a number of each shape is called in a report. -/
def numberShape : Shape → String
  | .u64 => "u64"
  | .i64 => "i64"
  | .u8 => "u8"
  | _ => "f64"

/-- A number read as an integer of a range, or as a double. -/
def visitNumber (shape : Shape) (n : Parsed) : Except Mismatch Json :=
  let name := numberShape shape
  match shape, n with
  | .f64, .u64 k => .ok (.num (.float (Float.ofNat k)))
  | .f64, .i64 k => .ok (.num (.float (Float.ofInt k)))
  | .f64, .f64 f => .ok (.num (.float f))
  | .u64, .u64 k => .ok (.num (.nat k))
  | .i64, .u64 k => if k < Nat.pow 2 63 then .ok (.num (.nat k)) else .error (.invalidValue (.unsigned k) name)
  | .u8, .u64 k => if k < 256 then .ok (.num (.nat k)) else .error (.invalidValue (.unsigned k) name)
  | .i64, .i64 k => .ok (.num (.neg k))
  | _, .i64 k => .error (.invalidValue (.signed k) name)
  | _, .f64 f => .error (.invalidType (jsonFloat f) name)
  | _, .u64 k => .ok (.num (.nat k))

/-- A number of the given shape at `i`. -/
def readNumber (src : ByteArray) (shape : Shape) (i : Nat) : Except ReadError (Json × Nat) :=
  let (b, i) := peekAt src i
  let visit : Except ReadError (Parsed × Nat) → Except ReadError (Json × Nat) := fun r => do
    let (n, j) ← r
    match visitNumber shape n with
    | .ok v => pure (v, j)
    | .error m => throw (placeAt src j (mismatch m))
  match b with
  | none => .error (peekFaultAt src i .eofValue)
  | some 45 => visit (number src (i + 1) false)
  | some d => if isDigit d then visit (number src i true) else .error (wrongKind src i (numberShape shape))

/-- A string at `i`, read with `check` (which may refuse it with a report). -/
def readStringWith (src : ByteArray) (expected : String) (check : String → Except Mismatch Json)
    (i : Nat) : Except ReadError (Json × Nat) :=
  let (b, i) := peekAt src i
  match b with
  | none => .error (peekFaultAt src i .eofValue)
  | some 34 => do
    let (t, j) ← stringBody src (i + 1) #[]
    match check t with
    | .ok v => pure (v, j)
    | .error m => throw (placeAt src j (mismatch m))
  | some _ => .error (wrongKind src i expected)

/-- A string at `i`. -/
def readString (src : ByteArray) (i : Nat) : Except ReadError (Json × Nat) :=
  readStringWith src "a string" (fun t => .ok (.str t)) i

/-- A date-time text at `i`, in its normal form. -/
def readDateTime (src : ByteArray) (i : Nat) : Except ReadError (Json × Nat) :=
  readStringWith src "a formatted date and time string or a unix timestamp"
    (fun t => match TimeText.parse t with
      | .ok inst => .ok (.str inst.render)
      | .error e => .error (.custom e.message)) i

/-- A boolean at `i`. -/
def readBool (src : ByteArray) (i : Nat) : Except ReadError (Json × Nat) :=
  let (b, i) := peekAt src i
  match b with
  | none => .error (peekFaultAt src i .eofValue)
  | some 116 => (ident src (i + 1) [114, 117, 101]).map fun j => (.bool true, j)
  | some 102 => (ident src (i + 1) [97, 108, 115, 101]).map fun j => (.bool false, j)
  | some _ => .error (wrongKind src i "a boolean")

/-- Strings up to the closing bracket. -/
def stringItems (src : ByteArray) (fuel : Nat) (i : Nat) (first : Bool) (acc : Array Json) :
    Except ReadError (Array Json × Nat) :=
  match fuel with
  | 0 => .error (faultAt src i .eofList)
  | fuel + 1 => do
    let (more, i) ← nextElement src i first
    if more then
      let (v, i) ← readString src i
      stringItems src fuel i false (acc.push v)
    else pure (acc, i)

/-- A list of strings at `i`. -/
def readStrings (src : ByteArray) (i : Nat) : Except ReadError (Json × Nat) :=
  let (b, i) := peekAt src i
  match b with
  | none => .error (peekFaultAt src i .eofValue)
  | some 91 => do
    let (xs, j) ← stringItems src (src.size + 1) (i + 1) true #[]
    match closeList src j with
    | (.ok (), k) => pure (.arr xs.toList, k)
    | (.error e, _) => throw e
  | some _ => .error (wrongKind src i "a sequence")

/-- The fields of a record summary, in order. -/
def recordFields : List String := ["id", "title", "body"]

/-- A record summary as an object. -/
def recordJson (id title body : Json) : Json :=
  .obj [("body", body), ("id", id), ("title", title)]

/-- A record summary given as a list of its three fields. -/
def recordFromList (src : ByteArray) (i : Nat) : Except ReadError (Json × Nat) := do
  let expected := "struct RecordSummary with 3 elements"
  let tooShort (k j : Nat) : ReadError := placeAt src (closeList src j).2 (mismatch (.invalidLength k expected))
  let (more, i) ← nextElement src i true
  if !more then throw (tooShort 0 i)
  let (id, i) ← readString src i
  let (more, i) ← nextElement src i false
  if !more then throw (tooShort 1 i)
  let (title, i) ← readString src i
  let (more, i) ← nextElement src i false
  if !more then throw (tooShort 2 i)
  let (body, i) ← readString src i
  match closeList src i with
  | (.ok (), k) => pure (recordJson id title body, k)
  | (.error e, _) => throw e

/-- The members of a record summary given as an object; other members are skipped. -/
def recordMembers (src : ByteArray) (fuel : Nat) (i : Nat) (first : Bool)
    (got : List (String × Json)) : Except ReadError (List (String × Json) × Nat) :=
  match fuel with
  | 0 => .error (faultAt src i .eofObject)
  | fuel + 1 => do
    let (more, i) ← nextKey src i first
    if !more then return (got, i)
    let (k, i) ← stringBody src (i + 1) #[]
    if recordFields.contains k then
      if (got.lookup k).isSome then
        throw (placeAt src (closeObject src i).2 (mismatch (.duplicateField k)))
      let i ← colon src i
      let (v, i) ← readString src i
      recordMembers src fuel i false ((k, v) :: got)
    else
      let i ← colon src i
      let i ← skipValue src i
      recordMembers src fuel i false got

/-- A record summary at `i`, as an object or as a list of three strings. -/
def readRecord (src : ByteArray) (i : Nat) : Except ReadError (Json × Nat) :=
  let (b, i) := peekAt src i
  match b with
  | none => .error (peekFaultAt src i .eofValue)
  | some 91 => recordFromList src (i + 1)
  | some 123 => do
    let (got, j) ← recordMembers src (src.size + 1) (i + 1) true []
    let missing := recordFields.find? fun f => (got.lookup f).isNone
    match missing with
    | some f => throw (placeAt src (closeObject src j).2 (mismatch (.missingField f)))
    | none =>
      match closeObject src j with
      | (.ok (), k) =>
        pure (recordJson ((got.lookup "id").getD .null) ((got.lookup "title").getD .null)
          ((got.lookup "body").getD .null), k)
      | (.error e, _) => throw e
  | some _ => .error (wrongKind src i "struct RecordSummary")

/-- Data of a shape at `i`. -/
def readShapeAt (src : ByteArray) (shape : Shape) (i : Nat) : Except ReadError (Json × Nat) :=
  match shape with
  | .value => value src 128 i
  | .u64 | .i64 | .u8 | .f64 => readNumber src shape i
  | .string => readString src i
  | .bool => readBool src i
  | .strings => readStrings src i
  | .record => readRecord src i
  | .datetime => readDateTime src i

end JsonRead

/-- Reads a whole text as data of a shape; only blanks may follow it. -/
def Shape.read (shape : Shape) (src : ByteArray) : Except JsonRead.ReadError Json := do
  let (v, i) ← JsonRead.readShapeAt src shape 0
  let (b, j) := JsonRead.peekAt src i
  match b with
  | some _ => throw (JsonRead.peekFaultAt src j .trailingCharacters)
  | none => pure v

/-- Reads a whole text as a JSON value. -/
def Json.parse (src : ByteArray) : Except JsonRead.ReadError Json := Shape.value.read src

end TierCache
