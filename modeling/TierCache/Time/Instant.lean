/-!
Calendar instants in UTC, counted in nanoseconds from 1970-01-01T00:00:00Z, with the proleptic
Gregorian calendar for dates. Text in RFC 3339 form is read leniently (a blank may stand for the
`T`, blanks may surround the separators) and written in one normal form: UTC with `Z`, and a
fraction of 3, 6 or 9 digits only when the nanoseconds are not zero.
-/

namespace TierCache

/-- An instant on the UTC time line. -/
structure Instant where
  nanos : Int
  deriving Repr, DecidableEq, Inhabited, Ord

instance : LT Instant := ⟨fun a b => a.nanos < b.nanos⟩
instance : LE Instant := ⟨fun a b => a.nanos ≤ b.nanos⟩
instance (a b : Instant) : Decidable (a < b) := inferInstanceAs (Decidable (a.nanos < b.nanos))
instance (a b : Instant) : Decidable (a ≤ b) := inferInstanceAs (Decidable (a.nanos ≤ b.nanos))

namespace Instant

def nanosPerSecond : Int := 1000000000
def nanosPerDay : Int := 86400 * nanosPerSecond

/-- Days since 1970-01-01 of a civil date. -/
def daysFromCivil (y : Int) (m d : Nat) : Int :=
  let y := if m ≤ 2 then y - 1 else y
  let era := (if y ≥ 0 then y else y - 399) / 400
  let yoe := y - era * 400
  let mp : Int := if m > 2 then m - 3 else m + 9
  let doy := (153 * mp + 2) / 5 + d - 1
  let doe := yoe * 365 + yoe / 4 - yoe / 100 + doy
  era * 146097 + doe - 719468

/-- The civil date of a day count since 1970-01-01, as year, month and day. -/
def civilFromDays (z : Int) : Int × Nat × Nat :=
  let z := z + 719468
  let era := (if z ≥ 0 then z else z - 146096) / 146097
  let doe := z - era * 146097
  let yoe := (doe - doe / 1460 + doe / 36524 - doe / 146096) / 365
  let y := yoe + era * 400
  let doy := doe - (365 * yoe + yoe / 4 - yoe / 100)
  let mp := (5 * doy + 2) / 153
  let d := doy - (153 * mp + 2) / 5 + 1
  let m := if mp < 10 then mp + 3 else mp - 9
  ((if m ≤ 2 then y + 1 else y), m.toNat, d.toNat)

/-- Whether a year has a 29th of February. -/
def isLeap (y : Int) : Bool := y % 4 == 0 && (y % 100 != 0 || y % 400 == 0)

/-- The number of days in a month. -/
def daysInMonth (y : Int) (m : Nat) : Nat :=
  match m with
  | 2 => if isLeap y then 29 else 28
  | 4 | 6 | 9 | 11 => 30
  | _ => 31

/-- Whole days since 1970-01-01 (rounded down) and nanoseconds into the day. -/
def dayAndTime (t : Instant) : Int × Int :=
  (t.nanos / nanosPerDay, t.nanos % nanosPerDay)

/-- The hour of the day in UTC, 0 to 23. -/
def hour (t : Instant) : Nat := ((dayAndTime t).2 / (3600 * nanosPerSecond)).toNat

/-- The day of the week, Monday = 0. -/
def weekdayFromMonday (t : Instant) : Nat := (((dayAndTime t).1 + 3) % 7).toNat

/-- The instant `secs` seconds later. -/
def addSeconds (t : Instant) (secs : Int) : Instant := ⟨t.nanos + secs * nanosPerSecond⟩

/-- Whole seconds from `a` to `b`, rounded toward zero. -/
def secondsBetween (a b : Instant) : Int := Int.tdiv (b.nanos - a.nanos) nanosPerSecond

/-- The earliest and latest instants the calendar holds: the first of January of year -262143 and
the last nanosecond of year 262142. -/
def minNanos : Int := daysFromCivil (-262143) 1 1 * nanosPerDay
def maxNanos : Int := (daysFromCivil 262142 12 31 + 1) * nanosPerDay - 1

/-- Whether an instant lies in the supported range of years. -/
def inRange (t : Instant) : Bool := minNanos ≤ t.nanos && t.nanos ≤ maxNanos

/-- Zero-padded decimal of `n` with at least `width` digits. -/
def pad (width n : Nat) : String :=
  let s := toString n
  String.ofList (List.replicate (width - s.length) '0') ++ s

/-- The normal RFC 3339 text: `2024-03-04T12:00:00Z`, `2024-03-04T11:59:59.999Z`. -/
def render (t : Instant) : String :=
  let (days, tod) := dayAndTime t
  let (y, m, d) := civilFromDays days
  let secs := (tod / nanosPerSecond).toNat
  let nano := (tod % nanosPerSecond).toNat
  let year :=
    if 0 ≤ y && y ≤ 9999 then pad 4 y.toNat
    else (if y < 0 then "-" else "+") ++ pad 4 y.natAbs
  let frac :=
    if nano == 0 then ""
    else if nano % 1000000 == 0 then "." ++ pad 3 (nano / 1000000)
    else if nano % 1000 == 0 then "." ++ pad 6 (nano / 1000)
    else "." ++ pad 9 nano
  year ++ "-" ++ pad 2 m ++ "-" ++ pad 2 d ++ "T" ++ pad 2 (secs / 3600) ++ ":" ++
    pad 2 (secs / 60 % 60) ++ ":" ++ pad 2 (secs % 60) ++ frac ++ "Z"

end Instant

/-- Why a date-time text was refused. -/
inductive TimeTextError where
  | outOfRange
  | notEnough
  | invalid
  | tooShort
  | tooLong
  deriving Repr, DecidableEq

/-- The text of a refusal. -/
def TimeTextError.message : TimeTextError → String
  | .outOfRange => "input is out of range"
  | .notEnough => "input is not enough for unique date and time"
  | .invalid => "input contains invalid characters"
  | .tooShort => "premature end of input"
  | .tooLong => "trailing input"

namespace TimeText

/-- Whitespace as text scanners skip it. -/
def isBlank (c : Char) : Bool :=
  c == ' ' || c == '\t' || c == '\n' || c == '\r' || c == '\x0b' || c == '\x0c' ||
  c.toNat == 0x85 || c.toNat == 0xA0 || c.toNat == 0x1680 || (0x2000 ≤ c.toNat && c.toNat ≤ 0x200A) ||
  c.toNat == 0x2028 || c.toNat == 0x2029 || c.toNat == 0x202F || c.toNat == 0x205F ||
  c.toNat == 0x3000

/-- Reads `min` to `max` decimal digits. -/
def number (s : List Char) (min max : Nat) : Except TimeTextError (Int × List Char) :=
  if s.length < min then .error .tooShort else
  let ds := (s.take max).takeWhile Char.isDigit
  if ds.length < min then .error .invalid
  else
    let n := ds.foldl (fun acc c => acc * 10 + (c.toNat - 48)) (0 : Nat)
    if n ≥ Nat.pow 2 63 then .error .outOfRange else .ok ((n : Int), s.drop ds.length)

/-- Reads a literal text. -/
def literal (s : List Char) (lit : Char) : Except TimeTextError (Unit × List Char) :=
  match s with
  | [] => .error .tooShort
  | c :: rest => if c == lit then .ok ((), rest) else .error .invalid

/-- A field that must lie in `[lo, hi]`. -/
def ranged (v lo hi : Int) : Except TimeTextError Nat :=
  if lo ≤ v && v ≤ hi then .ok v.toNat else .error .outOfRange

/-- The year: four digits, or any number of digits after an explicit sign. -/
def year (s : List Char) : Except TimeTextError (Int × List Char) :=
  match s with
  | '-' :: rest => do let (v, r) ← number rest 1 1000; pure (-v, r)
  | '+' :: rest => number rest 1 1000
  | _ => number s 1 4

/-- A UTC offset in seconds: `Z`, or a sign, two hour digits, an optional colon or blanks,
and two minute digits. -/
def offset (s : List Char) : Except TimeTextError (Int × List Char) :=
  match s with
  | 'Z' :: rest | 'z' :: rest => .ok (0, rest)
  | c :: rest =>
    let neg? : Option Bool :=
      if c == '+' then some false else if c == '-' || c.toNat == 0x2212 then some true else none
    match neg? with
    | none => .error .invalid
    | some neg =>
      match rest with
      | h1 :: h2 :: rest =>
        if !(h1.isDigit && h2.isDigit) then .error .invalid else
        let hours : Int := (h1.toNat - 48) * 10 + (h2.toNat - 48)
        let rest := rest.dropWhile fun c => c == ':' || isBlank c
        match rest with
        | m1 :: m2 :: rest =>
          if '0' ≤ m1 && m1 ≤ '5' && m2.isDigit then
            let secs := hours * 3600 + ((m1.toNat - 48) * 10 + (m2.toNat - 48)) * 60
            .ok ((if neg then -secs else secs), rest)
          else if '6' ≤ m1 && m1 ≤ '9' && m2.isDigit then .error .outOfRange
          else .error .invalid
        | _ => .error .tooShort
      | _ => .error .tooShort
  | [] => .error .tooShort

/-- The fraction of a second after a `.`: one to nine digits count, more are skipped. -/
def fraction (s : List Char) : Except TimeTextError (Nat × List Char) :=
  match s with
  | '.' :: rest => do
    let (v, r) ← number rest 1 9
    let used := rest.length - r.length
    let scale := Int.pow 10 (9 - used)
    pure ((v * scale).toNat, r.dropWhile Char.isDigit)
  | _ => .ok (0, s)

/-- Reads a date and time with offset, as RFC 3339 allows it with some leniency. -/
def parse (text : String) : Except TimeTextError Instant := do
  let skip := fun (s : List Char) => s.dropWhile isBlank
  let s := text.toList
  let (y, s) ← year s
  let (_, s) ← literal (skip s) '-'
  let (mo, s) ← number (skip s) 1 2
  let mo ← ranged mo 1 12
  let (_, s) ← literal (skip s) '-'
  let (d, s) ← number (skip s) 1 2
  let d ← ranged d 1 31
  let s ← match s with
    | c :: rest => if c == 'T' || c == 't' || c == ' ' then pure rest else throw .invalid
    | [] => throw .tooShort
  let (h, s) ← number s 1 2
  let h ← ranged h 0 23
  let (_, s) ← literal (skip s) ':'
  let (mi, s) ← number (skip s) 1 2
  let mi ← ranged mi 0 59
  let (_, s) ← literal (skip s) ':'
  let (sec, s) ← number (skip s) 1 2
  let sec ← ranged sec 0 60
  let (nano, s) ← fraction s
  let (off, s) ← offset (skip s)
  let s := skip s
  if !s.isEmpty then throw .tooLong
  if y < -262143 || y > 262142 || d > Instant.daysInMonth y mo then throw .outOfRange
  if off.natAbs ≥ 86400 then throw .outOfRange
  let days := Instant.daysFromCivil y mo d
  let secs : Int := days * 86400 + h * 3600 + mi * 60 + sec - off
  let t : Instant := ⟨secs * Instant.nanosPerSecond + nano⟩
  if !t.inRange then throw .outOfRange
  pure t

end TimeText
end TierCache
