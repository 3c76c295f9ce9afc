import TierCache.Json.Value
import TierCache.Json.Write
import TierCache.Text.Utf8
import TierCache.Decode.Mismatch
import TierCache.Time.Instant
/-!
Reading JSON text, byte by byte, into values or into typed data. The reader stops at the first
fault and reports it with its line and column: the column counts bytes from the start of the
line, up to the fault (a fault found by looking at a byte without taking it counts that byte
too). A typed read asks for what it wants as it goes, so a value of the wrong kind is reported
before any later syntax fault. Nesting is limited to 127 levels.

Numbers follow the reader's fast path: the significant digits are gathered into a 64-bit
integer (digits past that are dropped), and the double is that integer multiplied or divided
by a power of ten, which is not always the nearest double to the text.
-/

namespace TierCache.JsonRead

/-- Faults of the text itself. -/
inductive Malformed where
  | eofList | eofObject | eofString | eofValue
  | expectedColon | expectedListCommaOrEnd | expectedObjectCommaOrEnd | expectedIdent
  | expectedValue | invalidEscape | invalidNumber | numberOutOfRange | invalidCodePoint
  | controlChar | keyMustBeString | loneLeadingSurrogate | trailingComma | trailingCharacters
  | unexpectedEndOfHexEscape | recursionLimit
  deriving Repr, DecidableEq

/-- The text of a syntax fault. -/
def Malformed.message : Malformed → String
  | .eofList => "EOF while parsing a list"
  | .eofObject => "EOF while parsing an object"
  | .eofString => "EOF while parsing a string"
  | .eofValue => "EOF while parsing a value"
  | .expectedColon => "expected `:`"
  | .expectedListCommaOrEnd => "expected `,` or `]`"
  | .expectedObjectCommaOrEnd => "expected `,` or `\x7d`"
  | .expectedIdent => "expected ident"
  | .expectedValue => "expected value"
  | .invalidEscape => "invalid escape"
  | .invalidNumber => "invalid number"
  | .numberOutOfRange => "number out of range"
  | .invalidCodePoint => "invalid unicode code point"
  | .controlChar => "control character (\\u0000-\\u001F) found while parsing a string"
  | .keyMustBeString => "key must be a string"
  | .loneLeadingSurrogate => "lone leading surrogate in hex escape"
  | .trailingComma => "trailing comma"
  | .trailingCharacters => "trailing characters"
  | .unexpectedEndOfHexEscape => "unexpected end of hex escape"
  | .recursionLimit => "recursion limit exceeded"

/-- A fault of the text or of the shape of the data. -/
inductive Fault where
  | malformed (code : Malformed)
  | mismatch (m : Mismatch)
  deriving Inhabited

/-- A fault, with its line and column when known. -/
structure ReadError where
  fault : Fault
  place : Option (Nat × Nat)
  deriving Inhabited

/-- The text of a read error: the fault, then `at line L column C` when the place is known. -/
def ReadError.message (e : ReadError) : String :=
  let body := match e.fault with
    | .malformed c => c.message
    | .mismatch m => m.message
  match e.place with
  | some (l, c) => body ++ s!" at line {l} column {c}"
  | none => body

section
variable (src : ByteArray)

/-- The byte at `i`, if any. -/
def byteAt (i : Nat) : Option UInt8 := if h : i < src.size then some src[i] else none

theorem lt_of_byteAt {i : Nat} {b : UInt8} (h : byteAt src i = some b) : i < src.size := by
  unfold byteAt at h
  split at h
  · assumption
  · simp at h

/-- Line and column of byte index `i`: lines are counted by newlines before the line's start,
the column by bytes after it. -/
def placeOf (i : Nat) : Nat × Nat :=
  let pre := (src.extract 0 i).toList
  let starts := (pre.zipIdx.filter (·.1 == 10)).map (·.2 + 1)
  let lineStart := starts.getLastD 0
  (starts.length + 1, i - lineStart)

/-- A syntax fault at index `i`. -/
def faultAt (i : Nat) (c : Malformed) : ReadError := ⟨.malformed c, some (placeOf src i)⟩

/-- A syntax fault found by looking at the byte at `i`, which then counts too. -/
def peekFaultAt (i : Nat) (c : Malformed) : ReadError := faultAt src (min src.size (i + 1)) c

/-- Gives a fault without a place the place `i`. -/
def placeAt (i : Nat) (e : ReadError) : ReadError :=
  match e.place with
  | some _ => e
  | none => { e with place := some (placeOf src i) }

/-- Skips blanks (space, tab, newline, carriage return). -/
def skipBlanks (i : Nat) : Nat :=
  match h : byteAt src i with
  | some b => if b == 32 || b == 9 || b == 10 || b == 13 then skipBlanks (i + 1) else i
  | none => i
termination_by src.size - i
decreasing_by all_goals (have hb := lt_of_byteAt _ h; omega)

/-- Whether a byte is an ASCII digit. -/
def isDigit (b : UInt8) : Bool := 48 ≤ b && b ≤ 57

/-- Skips ASCII digits. -/
def skipDigits (i : Nat) : Nat :=
  match h : byteAt src i with
  | some b => if isDigit b then skipDigits (i + 1) else i
  | none => i
termination_by src.size - i
decreasing_by all_goals (have hb := lt_of_byteAt _ h; omega)

/-- Takes the bytes of `word` (the rest of `null`, `true` or `false`). -/
def ident (i : Nat) : List UInt8 → Except ReadError Nat
  | [] => .ok i
  | w :: rest =>
    match byteAt src i with
    | none => .error (faultAt src i .eofValue)
    | some b => if b == w then ident (i + 1) rest else .error (faultAt src (i + 1) .expectedIdent)

end

/-! ### Numbers -/

/-- A number as the reader first sees it. -/
inductive Parsed where
  | u64 (n : Nat)
  | i64 (n : Int)
  | f64 (f : Float)
  deriving Inhabited

/-- A double as JSON reports name it: in its written JSON form. -/
def jsonFloat (f : Float) : Found := .other ("floating point `" ++ JsonNumber.renderFloat f ++ "`")

/-- What a number is called in a report. -/
def Parsed.found : Parsed → Found
  | .u64 n => .unsigned n
  | .i64 n => .signed n
  | .f64 f => jsonFloat f

def u64Max : Nat := Nat.pow 2 64 - 1
def i32Max : Int := Int.pow 2 31 - 1

/-- Whether `a · 10 + d` would pass `limit`. -/
def overflows (a d limit : Int) : Bool := a ≥ limit / 10 && (a > limit / 10 || d > limit % 10)

/-- `10^k` as a double, for `k ≤ 308`. -/
def pow10 (k : Nat) : Float := Float.ofScientific 1 false k

/-- The double `±significand · 10^exponent`, by one multiplication or division when the power
is at most `10^308`, else dividing by `10^308` until it is; a result too large is a fault. -/
def fromParts (src : ByteArray) (i : Nat) (positive : Bool) (significand : Nat) (exponent : Int) :
    Except ReadError Float :=
  let rec go (fuel : Nat) (f : Float) (e : Int) : Except ReadError Float :=
    match fuel with
    | 0 => .ok f
    | fuel + 1 =>
      if e.natAbs ≤ 308 then
        if e ≥ 0 then
          let g := f * pow10 e.natAbs
          if g.isInf then .error (faultAt src i .numberOutOfRange) else .ok g
        else .ok (f / pow10 e.natAbs)
      else if f == 0.0 then .ok f
      else if e ≥ 0 then .error (faultAt src i .numberOutOfRange)
      else go fuel (f / pow10 308) (e + 308)
  (go (exponent.natAbs / 308 + 2) (Float.ofNat significand) exponent).map fun f =>
    if positive then f else -f

/-- The sum or difference of an exponent and a count, held to 32-bit bounds. -/
def saturate (x : Int) : Int := max (-Int.pow 2 31) (min i32Max x)

/-- After an exponent that does not fit 32 bits: a fault, or zero when the value is zero or the
exponent negative. -/
def exponentOverflow (src : ByteArray) (i : Nat) (positive zero positiveExp : Bool) :
    Except ReadError (Float × Nat) :=
  if !zero && positiveExp then .error (faultAt src i .numberOutOfRange)
  else .ok ((if positive then 0.0 else -0.0), skipDigits src i)

/-- The exponent digits after `e`, `e+` or `e-`. -/
def exponentDigits (src : ByteArray) (i : Nat) (positive : Bool) (significand : Nat)
    (start : Int) (positiveExp : Bool) (acc : Int) : Except ReadError (Float × Nat) :=
  match h : byteAt src i with
  | some b =>
    if isDigit b then
      let d : Int := (b.toNat - 48 : Nat)
      if overflows acc d i32Max then exponentOverflow src (i + 1) positive (significand == 0) positiveExp
      else exponentDigits src (i + 1) positive significand start positiveExp (acc * 10 + d)
    else finish i
  | none => finish i
termination_by src.size - i
decreasing_by all_goals (have hb := lt_of_byteAt _ h; omega)
where
  finish (i : Nat) : Except ReadError (Float × Nat) := do
    let e := if positiveExp then saturate (start + acc) else saturate (start - acc)
    let f ← fromParts src i positive significand e
    pure (f, i)

/-- An exponent; `i` is just after the `e`. -/
def exponentPart (src : ByteArray) (i : Nat) (positive : Bool) (significand : Nat) (start : Int) :
    Except ReadError (Float × Nat) :=
  let (positiveExp, i) := match byteAt src i with
    | some 43 => (true, i + 1)
    | some 45 => (false, i + 1)
    | _ => (true, i)
  match byteAt src i with
  | none => .error (faultAt src i .eofValue)
  | some b =>
    if isDigit b then exponentDigits src (i + 1) positive significand start positiveExp (b.toNat - 48 : Nat)
    else .error (faultAt src (i + 1) .invalidNumber)

/-- Digits past what 64 bits hold are dropped; then an optional exponent. -/
def decimalOverflow (src : ByteArray) (i : Nat) (positive : Bool) (significand : Nat) (e : Int) :
    Except ReadError (Float × Nat) :=
  let i := skipDigits src i
  match byteAt src i with
  | some 101 | some 69 => exponentPart src (i + 1) positive significand e
  | _ => do let f ← fromParts src i positive significand e; pure (f, i)

/-- The fraction digits; `i` is just after the point. -/
def fractionDigits (src : ByteArray) (i : Nat) (positive : Bool) (significand : Nat)
    (before : Int) (after : Nat) : Except ReadError (Float × Nat) :=
  match h : byteAt src i with
  | some b =>
    if isDigit b then
      let d := b.toNat - 48
      if overflows significand d u64Max then decimalOverflow src i positive significand (before - after)
      else fractionDigits src (i + 1) positive (significand * 10 + d) before (after + 1)
    else finish i
  | none => finish i
termination_by src.size - i
decreasing_by all_goals (have hb := lt_of_byteAt _ h; omega)
where
  finish (i : Nat) : Except ReadError (Float × Nat) :=
    if after == 0 then
      match byteAt src i with
      | some _ => .error (peekFaultAt src i .invalidNumber)
      | none => .error (peekFaultAt src i .eofValue)
    else
      match byteAt src i with
      | some 101 | some 69 => exponentPart src (i + 1) positive significand (before - after)
      | _ => do let f ← fromParts src i positive significand (before - after); pure (f, i)

/-- Integer digits past what 64 bits hold: each one raises the exponent. -/
def longInteger (src : ByteArray) (i : Nat) (positive : Bool) (significand : Nat) (e : Int) :
    Except ReadError (Float × Nat) :=
  match h : byteAt src i with
  | some b =>
    if isDigit b then longInteger src (i + 1) positive significand (e + 1)
    else if b == 46 then fractionDigits src (i + 1) positive significand e 0
    else if b == 101 || b == 69 then exponentPart src (i + 1) positive significand e
    else do let f ← fromParts src i positive significand e; pure (f, i)
  | none => do let f ← fromParts src i positive significand e; pure (f, i)
termination_by src.size - i
decreasing_by all_goals (have hb := lt_of_byteAt _ h; omega)

/-- What follows the integer digits: a fraction, an exponent, or the end of the number. An
integer with a minus sign is signed when it fits 64 bits, and `-0` is the double `-0.0`. -/
def afterInteger (src : ByteArray) (i : Nat) (positive : Bool) (significand : Nat) : Except ReadError (Parsed × Nat) :=
  match byteAt src i with
  | some 46 => (fractionDigits src (i + 1) positive significand 0 0).map fun (f, i) => (.f64 f, i)
  | some 101 | some 69 => (exponentPart src (i + 1) positive significand 0).map fun (f, i) => (.f64 f, i)
  | _ =>
    if positive then .ok (.u64 significand, i)
    else if significand == 0 || significand > Nat.pow 2 63 then .ok (.f64 (-(Float.ofNat significand)), i)
    else .ok (.i64 (-(significand : Int)), i)

/-- Integer digits after the first. -/
def integerDigits (src : ByteArray) (i : Nat) (positive : Bool) (significand : Nat) : Except ReadError (Parsed × Nat) :=
  match h : byteAt src i with
  | some b =>
    if isDigit b then
      let d := b.toNat - 48
      if overflows significand d u64Max then
        (longInteger src i positive significand 0).map fun (f, i) => (.f64 f, i)
      else integerDigits src (i + 1) positive (significand * 10 + d)
    else afterInteger src i positive significand
  | none => afterInteger src i positive significand
termination_by src.size - i
decreasing_by all_goals (have hb := lt_of_byteAt _ h; omega)

/-- A number whose sign has been taken; `i` is at its first digit. A leading zero stands alone. -/
def number (src : ByteArray) (i : Nat) (positive : Bool) : Except ReadError (Parsed × Nat) :=
  match byteAt src i with
  | none => .error (faultAt src i .eofValue)
  | some b =>
    if b == 48 then
      match byteAt src (i + 1) with
      | some c => if isDigit c then .error (peekFaultAt src (i + 1) .invalidNumber)
                  else afterInteger src (i + 1) positive 0
      | none => afterInteger src (i + 1) positive 0
    else if isDigit b then integerDigits src (i + 1) positive (b.toNat - 48)
    else .error (faultAt src (i + 1) .invalidNumber)

/-! ### Strings -/

/-- Whether a byte is a hex digit, and its value. -/
def hexValue (b : UInt8) : Option Nat :=
  if 48 ≤ b && b ≤ 57 then some (b.toNat - 48)
  else if 97 ≤ b && b ≤ 102 then some (b.toNat - 87)
  else if 65 ≤ b && b ≤ 70 then some (b.toNat - 55)
  else none

/-- Four hex digits at `i`. -/
def hexEscape (src : ByteArray) (i : Nat) : Except ReadError (Nat × Nat) :=
  if i + 4 ≤ src.size then
    let ds := [byteAt src i, byteAt src (i + 1), byteAt src (i + 2), byteAt src (i + 3)]
    match ds.mapM (fun b => b.bind hexValue) with
    | some [a, b, c, d] => .ok (((a * 16 + b) * 16 + c) * 16 + d, i + 4)
    | _ => .error (faultAt src (i + 4) .invalidEscape)
  else .error (faultAt src src.size .eofString)

/-- A `\u` escape, `i` after the `u`: one code unit, or a surrogate pair written as two escapes. -/
def unicodeEscape (src : ByteArray) (i : Nat) : Except ReadError (List UInt8 × Nat) := do
  let (n, i) ← hexEscape src i
  if 0xDC00 ≤ n && n ≤ 0xDFFF then throw (faultAt src i .loneLeadingSurrogate)
  if n < 0xD800 || n > 0xDBFF then return (Utf8.encodePoint n, i)
  match byteAt src i with
  | none => throw (faultAt src i .eofString)
  | some b =>
    if b != 92 then throw (faultAt src (i + 1) .unexpectedEndOfHexEscape)
    match byteAt src (i + 1) with
    | none => throw (faultAt src (i + 1) .eofString)
    | some c =>
      if c != 117 then throw (faultAt src (i + 2) .unexpectedEndOfHexEscape)
      let (n2, j) ← hexEscape src (i + 2)
      if n2 < 0xDC00 || n2 > 0xDFFF then throw (faultAt src j .loneLeadingSurrogate)
      return (Utf8.encodePoint ((((n - 0xD800) <<< 10) ||| (n2 - 0xDC00)) + 0x10000), j)

/-- One escape, `i` after the backslash. -/
def escape (src : ByteArray) (i : Nat) : Except ReadError (List UInt8 × Nat) :=
  match byteAt src i with
  | none => .error (faultAt src i .eofString)
  | some c =>
    match c with
    | 34 => .ok ([34], i + 1)
    | 92 => .ok ([92], i + 1)
    | 47 => .ok ([47], i + 1)
    | 98 => .ok ([8], i + 1)
    | 102 => .ok ([12], i + 1)
    | 110 => .ok ([10], i + 1)
    | 114 => .ok ([13], i + 1)
    | 116 => .ok ([9], i + 1)
    | 117 => unicodeEscape src (i + 1)
    | _ => .error (faultAt src (i + 1) .invalidEscape)

/-- The rest of a string, `i` after the opening quote; its bytes must be UTF-8. -/
def stringBody (src : ByteArray) (i : Nat) (acc : Array UInt8) : Except ReadError (String × Nat) :=
  match h : byteAt src i with
  | none => .error (faultAt src i .eofString)
  | some b =>
    if b == 34 then
      match Utf8.decode acc.toList with
      | some s => .ok (s, i + 1)
      | none => .error (faultAt src i .invalidCodePoint)
    else if b == 92 then
      match escape src (i + 1) with
      | .error e => .error e
      | .ok (bytes, j) =>
        if j > i then stringBody src j (acc ++ bytes.toArray) else .error (faultAt src j .eofString)
    else if b < 32 then .error (faultAt src (i + 1) .controlChar)
    else stringBody src (i + 1) (acc.push b)
termination_by src.size - i
decreasing_by all_goals (have hb := lt_of_byteAt _ h; omega)

/-- Skips a string without building it, `i` after the opening quote: escapes are checked, the
bytes are not. -/
def skipString (src : ByteArray) (i : Nat) : Except ReadError Nat :=
  match h : byteAt src i with
  | none => .error (faultAt src i .eofString)
  | some b =>
    if b == 34 then .ok (i + 1)
    else if b == 92 then
      match byteAt src (i + 1) with
      | none => .error (faultAt src (i + 1) .eofString)
      | some c =>
        if c == 34 || c == 92 || c == 47 || c == 98 || c == 102 || c == 110 || c == 114 || c == 116 then
          skipString src (i + 2)
        else if c == 117 then
          match hexEscape src (i + 2) with
          | .ok (_, j) => if j > i then skipString src j else .error (faultAt src j .eofString)
          | .error e => .error e
        else .error (faultAt src (i + 2) .invalidEscape)
    else if b < 32 then .error (faultAt src i .controlChar)
    else skipString src (i + 1)
termination_by src.size - i
decreasing_by all_goals (have hb := lt_of_byteAt _ h; omega)

/-! ### Looking and reporting -/

/-- The first byte at or after `i` that is not a blank, and its index. -/
def peekAt (src : ByteArray) (i : Nat) : Option UInt8 × Nat :=
  let j := skipBlanks src i
  (byteAt src j, j)

/-- Reports a value of the wrong kind at `i`. Scalars are read to name them (a fault inside one
wins), brackets are only looked at; the report is placed after what was read. -/
def wrongKind (src : ByteArray) (i : Nat) (expected : String) : ReadError :=
  let found : Except ReadError (Found × Nat) :=
    match byteAt src i with
    | some 110 => (ident src (i + 1) [117, 108, 108]).map fun j => (.other "null", j)
    | some 116 => (ident src (i + 1) [114, 117, 101]).map fun j => (.bool true, j)
    | some 102 => (ident src (i + 1) [97, 108, 115, 101]).map fun j => (.bool false, j)
    | some 45 => (number src (i + 1) false).map fun (n, j) => (n.found, j)
    | some 34 => (stringBody src (i + 1) #[]).map fun (t, j) => (.str t, j)
    | some 91 => .ok (.seq, i)
    | some 123 => .ok (.map, i)
    | some b =>
      if isDigit b then (number src i true).map fun (n, j) => (n.found, j)
      else .error (peekFaultAt src i .expectedValue)
    | none => .error (peekFaultAt src i .expectedValue)
  match found with
  | .ok (f, j) => placeAt src j ⟨.mismatch (.invalidType f expected), none⟩
  | .error e => e

/-- A report about the data, to be placed where reading stands when it is raised. -/
def mismatch (m : Mismatch) : ReadError := ⟨.mismatch m, none⟩

/-- Ends a list: its closing bracket, or the fault there. The index moves even on a fault, since
a report raised inside the list is placed after this step. -/
def closeList (src : ByteArray) (i : Nat) : Except ReadError Unit × Nat :=
  let (b, j) := peekAt src i
  match b with
  | some 93 => (.ok (), j + 1)
  | some 44 =>
    let (c, k) := peekAt src (j + 1)
    match c with
    | some 93 => (.error (peekFaultAt src k .trailingComma), k)
    | _ => (.error (peekFaultAt src k .trailingCharacters), k)
  | some _ => (.error (peekFaultAt src j .trailingCharacters), j)
  | none => (.error (peekFaultAt src j .eofList), j)

/-- Ends an object: its closing brace, or the fault there. -/
def closeObject (src : ByteArray) (i : Nat) : Except ReadError Unit × Nat :=
  let (b, j) := peekAt src i
  match b with
  | some 125 => (.ok (), j + 1)
  | some 44 => (.error (peekFaultAt src j .trailingComma), j)
  | some _ => (.error (peekFaultAt src j .trailingCharacters), j)
  | none => (.error (peekFaultAt src j .eofObject), j)

/-- Joins the result of reading a list's or object's contents with its closing step: a fault of
the contents wins, and a report without a place is placed after the closing step. -/
def closeWith {α : Type} (src : ByteArray) (inner : Except ReadError (α × Nat)) (close : Nat → Except ReadError Unit × Nat)
    (fallback : Nat) : Except ReadError (α × Nat) :=
  match inner with
  | .ok (v, i) =>
    match close i with
    | (.ok (), j) => .ok (v, j)
    | (.error e, _) => .error e
  | .error e =>
    -- a report without a place lies where the closing step leaves off
    match e.place with
    | some _ => .error e
    | none => .error (placeAt src (close fallback).2 e)

/-- Whether another list element follows, at `i`; `first` for the first one. -/
def nextElement (src : ByteArray) (i : Nat) (first : Bool) : Except ReadError (Bool × Nat) :=
  let (b, j) := peekAt src i
  match b with
  | none => .error (peekFaultAt src j .eofList)
  | some 93 => .ok (false, j)
  | some b =>
    if first then .ok (true, j)
    else if b == 44 then
      let (c, k) := peekAt src (j + 1)
      match c with
      | some 93 => .error (peekFaultAt src k .trailingComma)
      | some _ => .ok (true, k)
      | none => .error (peekFaultAt src k .eofValue)
    else .error (peekFaultAt src j .expectedListCommaOrEnd)

/-- Whether another object member follows, at `i`, and the index of its key's opening quote. -/
def nextKey (src : ByteArray) (i : Nat) (first : Bool) : Except ReadError (Bool × Nat) :=
  let (b, j) := peekAt src i
  let key : Option UInt8 × Nat → Except ReadError (Bool × Nat) := fun (c, k) =>
    match c with
    | some 34 => .ok (true, k)
    | some 125 => .error (peekFaultAt src k .trailingComma)
    | some _ => .error (peekFaultAt src k .keyMustBeString)
    | none => .error (peekFaultAt src k .eofValue)
  match b with
  | some 125 => .ok (false, j)
  | some 44 => if first then key (b, j) else key (peekAt src (j + 1))
  | some _ => if first then key (b, j) else .error (peekFaultAt src j .expectedObjectCommaOrEnd)
  | none => .error (peekFaultAt src j .eofObject)

/-- The colon between a key and its value. -/
def colon (src : ByteArray) (i : Nat) : Except ReadError Nat :=
  let (b, j) := peekAt src i
  match b with
  | some 58 => .ok (j + 1)
  | some _ => .error (peekFaultAt src j .expectedColon)
  | none => .error (peekFaultAt src j .eofObject)

/-! ### Values -/

/-- The value a number reads as. -/
def Parsed.toJson : Parsed → Json
  | .u64 n => .num (.nat n)
  | .i64 n => .num (.neg n)
  | .f64 f => .num (.float f)

mutual
/-- A JSON value at `i`, with `depth` levels of nesting still allowed (plus one). -/
def value (src : ByteArray) (depth : Nat) (i : Nat) : Except ReadError (Json × Nat) :=
  let (b, i) := peekAt src i
  match b with
  | none => .error (peekFaultAt src i .eofValue)
  | some 110 => (ident src (i + 1) [117, 108, 108]).map fun j => (.null, j)
  | some 116 => (ident src (i + 1) [114, 117, 101]).map fun j => (.bool true, j)
  | some 102 => (ident src (i + 1) [97, 108, 115, 101]).map fun j => (.bool false, j)
  | some 45 => (number src (i + 1) false).map fun (n, j) => (n.toJson, j)
  | some 34 => (stringBody src (i + 1) #[]).map fun (t, j) => (.str t, j)
  | some 91 =>
    match depth with
    | 0 | 1 => .error (peekFaultAt src i .recursionLimit)
    | d + 2 =>
      closeWith src ((items src (d + 1) (src.size + 1) (i + 1) true #[]).map fun (xs, j) => (.arr xs.toList, j))
        (closeList src) (i + 1)
  | some 123 =>
    match depth with
    | 0 | 1 => .error (peekFaultAt src i .recursionLimit)
    | d + 2 =>
      closeWith src ((members src (d + 1) (src.size + 1) (i + 1) true []).map fun (ms, j) => (.obj ms, j))
        (closeObject src) (i + 1)
  | some b =>
    if isDigit b then (number src i true).map fun (n, j) => (n.toJson, j)
    else .error (peekFaultAt src i .expectedValue)
termination_by (depth, 0)

/-- List elements up to the closing bracket. -/
def items (src : ByteArray) (depth fuel : Nat) (i : Nat) (first : Bool) (acc : Array Json) :
    Except ReadError (Array Json × Nat) :=
  match fuel with
  | 0 => .error (faultAt src i .eofList)
  | fuel + 1 => do
    let (more, i) ← nextElement src i first
    if more then
      let (v, i) ← value src depth i
      items src depth fuel i false (acc.push v)
    else pure (acc, i)
termination_by (depth, fuel + 1)

/-- Object members up to the closing brace; a later member of a key replaces an earlier one. -/
def members (src : ByteArray) (depth fuel : Nat) (i : Nat) (first : Bool)
    (acc : List (String × Json)) : Except ReadError (List (String × Json) × Nat) :=
  match fuel with
  | 0 => .error (faultAt src i .eofObject)
  | fuel + 1 => do
    let (more, i) ← nextKey src i first
    if more then
      let (k, i) ← stringBody src (i + 1) #[]
      let i ← colon src i
      let (v, i) ← value src depth i
      members src depth fuel i false (Json.insertMember k v acc)
    else pure (acc, i)
termination_by (depth, fuel + 1)
end

/-- Where skipping a value stands: at the start of a value, or after one inside the bracket
`frame` (`afterItem` when a comma may follow). -/
inductive SkipPhase where
  | start
  | inside (afterItem : Bool) (frame : UInt8)

/-- Skips one value without building it: the syntax is checked, but not the range of numbers,
the UTF-8 of strings, or the depth of nesting. `stack` holds the brackets still open (innermost
last) and `opened` the one just opened, not yet on the stack. -/
def skipLoop (src : ByteArray) (fuel : Nat) (i : Nat) (stack : List UInt8) (opened : Option UInt8)
    (phase : SkipPhase) : Except ReadError Nat :=
  match fuel with
  | 0 => .error (faultAt src i .eofValue)
  | fuel + 1 =>
    match phase with
    | .start => do
      let (b, i) := peekAt src i
      let (frame, i) ← match b with
        | none => throw (peekFaultAt src i .eofValue)
        | some 110 => do let j ← ident src (i + 1) [117, 108, 108]; pure (none, j)
        | some 116 => do let j ← ident src (i + 1) [114, 117, 101]; pure (none, j)
        | some 102 => do let j ← ident src (i + 1) [97, 108, 115, 101]; pure (none, j)
        | some 45 => do let (_, j) ← number src (i + 1) false; pure (none, j)
        | some 34 => do let j ← skipString src (i + 1); pure (none, j)
        | some 91 => pure (some (91 : UInt8), i + 1)
        | some 123 => pure (some (123 : UInt8), i + 1)
        | some c => if isDigit c then do let (_, j) ← number src i true; pure (none, j)
                    else throw (peekFaultAt src i .expectedValue)
      match frame, opened with
      | some f, _ => skipLoop src fuel i (stack ++ opened.toList) none (.inside false f)
      | none, some f => skipLoop src fuel i stack none (.inside true f)
      | none, none =>
        match stack.getLast? with
        | some f => skipLoop src fuel i stack.dropLast none (.inside true f)
        | none => pure i
    | .inside afterItem frame =>
      let (b, j) := peekAt src i
      let closes := (b == some 93 && frame == 91) || (b == some 125 && frame == 123)
      if b == some 44 && afterItem then nextItem fuel (j + 1) frame
      else if closes then
        match stack.getLast? with
        | some f => skipLoop src fuel (j + 1) stack.dropLast none (.inside true f)
        | none => .ok (j + 1)
      else match b with
        | some _ =>
          if afterItem then
            .error (peekFaultAt src j (if frame == 91 then .expectedListCommaOrEnd else .expectedObjectCommaOrEnd))
          else nextItem fuel j frame
        | none => .error (peekFaultAt src j (if frame == 91 then .eofList else .eofObject))
where
  /-- The next item of a bracket: in an object, its key and colon first. -/
  nextItem (fuel : Nat) (i : Nat) (frame : UInt8) : Except ReadError Nat := do
    let i ← if frame == 123 then do
        let (c, k) := peekAt src i
        match c with
        | some 34 => pure ()
        | some _ => throw (peekFaultAt src k .keyMustBeString)
        | none => throw (peekFaultAt src k .eofObject)
        let k ← skipString src (k + 1)
        let (d, m) := peekAt src k
        match d with
        | some 58 => pure (m + 1)
        | some _ => throw (peekFaultAt src m .expectedColon)
        | none => throw (peekFaultAt src m .eofObject)
      else pure i
    skipLoop src fuel i stack (some frame) .start

/-- Skips one value. -/
def skipValue (src : ByteArray) (i : Nat) : Except ReadError Nat :=
  skipLoop src (4 * src.size + 4) i [] none .start

end TierCache.JsonRead
