import TierCache.Decimal.Shortest

/-!
# Plain scalars

How a plain scalar reads: as null (`~`, `null`, `Null`, `NULL` or nothing), a boolean (`true`,
`True`, `TRUE` and the three `false`), an integer (decimal, or `0x`, `0o`, `0b` with an
optional sign), a float, or else a string. Digits with a leading zero, such as `007`, are a
string. Integers are read as the standard library reads them in a radix: an optional sign, then
at least one digit, within the type's range.
-/

namespace TierCache.Yaml

/-- Whether a scalar reads as null. -/
def isNull (s : String) : Bool := s == "~" || s == "null" || s == "Null" || s == "NULL"

/-- The boolean a scalar reads as. -/
def parseBool (s : String) : Option Bool :=
  if s == "true" || s == "True" || s == "TRUE" then some true
  else if s == "false" || s == "False" || s == "FALSE" then some false
  else none

/-- Digits after a leading zero, which read as a string rather than a number. -/
def digitsButNotNumber (s : String) : Bool :=
  let cs := match s.toList with
    | '-' :: rest | '+' :: rest => rest
    | cs => cs
  cs.length > 1 && cs.head? == some '0' && (cs.drop 1).all fun c => '0' ≤ c && c ≤ '9'

/-- The value of a digit in a radix up to 36. -/
def digitIn (radix : Nat) (c : Char) : Option Nat :=
  let v := if '0' ≤ c && c ≤ '9' then c.toNat - 48
    else if 'a' ≤ c && c ≤ 'z' then c.toNat - 87
    else if 'A' ≤ c && c ≤ 'Z' then c.toNat - 55
    else 36
  if v < radix then some v else none

/-- An integer in a radix, within `[lo, hi]`: an optional `+` (or `-` when `lo` is negative),
then at least one digit. -/
def fromRadix (cs : List Char) (radix : Nat) (lo hi : Int) : Option Int :=
  let (neg, ds) := match cs with
    | '+' :: rest => (false, rest)
    | '-' :: rest => if lo < 0 then (true, rest) else (false, cs)
    | _ => (false, cs)
  if ds.isEmpty then none else
  let digits := ds.mapM (digitIn radix)
  match digits with
  | none => none
  | some dv =>
    let n : Int := dv.foldl (fun (acc : Int) (d : Nat) => acc * radix + d) 0
    let v := if neg then -n else n
    if lo ≤ v && v ≤ hi then some v else none

/-- The text after a prefix. -/
def afterPrefix (s pfx : String) : Option (List Char) :=
  if s.startsWith pfx then some (s.toList.drop pfx.length) else none

/-- Whether a text starts with a sign. -/
def signed (cs : List Char) : Bool := cs.head? == some '+' || cs.head? == some '-'

/-- A non-negative integer up to `hi`: a `+` may lead, then decimal or `0x`, `0o`, `0b` digits. -/
def parseUnsigned (s : String) (hi : Int) : Option Int :=
  let unpositive := if s.startsWith "+" then String.ofList (s.toList.drop 1) else s
  let radixed := [("0x", 16), ("0o", 8), ("0b", 2)].findSome? fun (pfx, radix) =>
    match afterPrefix unpositive pfx with
    | some rest => if signed rest then some none else (fromRadix rest radix 0 hi).map some
    | none => none
  match radixed with
  | some r => r
  | none =>
    if signed unpositive.toList || digitsButNotNumber s then none
    else fromRadix unpositive.toList 10 0 hi

/-- A negative integer down to `lo`: `-0x`, `-0o`, `-0b` digits, or decimal. -/
def parseNegative (s : String) (lo hi : Int) : Option Int :=
  let radixed := [("-0x", 16), ("-0o", 8), ("-0b", 2)].findSome? fun (pfx, radix) =>
    (afterPrefix s pfx).bind fun rest => fromRadix ('-' :: rest) radix lo hi
  match radixed with
  | some v => some v
  | none => if digitsButNotNumber s then none else fromRadix s.toList 10 lo hi

/-- A signed integer in `[lo, hi]`. -/
def parseSigned (s : String) (lo hi : Int) : Option Int :=
  let (unpositive, bad) :=
    if s.startsWith "+" then
      let rest := s.toList.drop 1
      (String.ofList rest, signed rest)
    else (s, false)
  if bad then none else
  let positive := [("0x", 16), ("0o", 8), ("0b", 2)].findSome? fun (pfx, radix) =>
    match afterPrefix unpositive pfx with
    | some rest => if signed rest then some none else (fromRadix rest radix lo hi).map some
    | none => none
  match positive with
  | some (some v) => some v
  | some none => none
  | none =>
    let negative := [("-0x", 16), ("-0o", 8), ("-0b", 2)].findSome? fun (pfx, radix) =>
      (afterPrefix s pfx).bind fun rest => fromRadix ('-' :: rest) radix lo hi
    match negative with
    | some v => some v
    | none => if digitsButNotNumber s then none else fromRadix unpositive.toList 10 lo hi

/-- The bounds of the integer kinds. -/
def u64Max : Int := Int.pow 2 64 - 1
def u128Max : Int := Int.pow 2 128 - 1
def i64Min : Int := -Int.pow 2 63
def i64Max : Int := Int.pow 2 63 - 1
def i128Min : Int := -Int.pow 2 127
def i128Max : Int := Int.pow 2 127 - 1

/-- Digits and what follows them. -/
def spanDigits (cs : List Char) : List Char × List Char :=
  (cs.takeWhile fun c => '0' ≤ c && c ≤ '9', cs.dropWhile fun c => '0' ≤ c && c ≤ '9')

/-- `m × 10^e` as a double, rounded; far out of range it is zero or infinite. -/
def scaled (m : Nat) (e : Int) : Float :=
  if m == 0 then 0 else
  let digits := (toString m).length
  if e + digits > 330 then Float.ofScientific 1 false 400
  else if e + digits < -345 then 0
  else if e ≥ 0 then Float.ofScientific m false e.toNat
  else Float.ofScientific m true e.natAbs

/-- A decimal float as the standard library reads one: a sign, digits with an optional point
(at least one digit in all), an optional exponent; or `inf`, `infinity`, `nan` in any case. -/
def parseFloatText (s : String) : Option Float :=
  let (neg, body) := match s.toList with
    | '-' :: rest => (true, rest)
    | '+' :: rest => (false, rest)
    | cs => (false, cs)
  let lower := String.ofList (body.map Char.toLower)
  let sign := fun (f : Float) => if neg then -f else f
  if lower == "inf" || lower == "infinity" then some (sign (Float.ofScientific 1 false 400))
  else if lower == "nan" then some (0 / 0)
  else
    let (whole, rest) := spanDigits body
    let (frac, rest) := match rest with
      | '.' :: r => spanDigits r
      | r => ([], r)
    let hasPoint := body.length > whole.length && body[whole.length]? == some '.'
    if whole.isEmpty && frac.isEmpty then none
    else if !hasPoint && !frac.isEmpty then none
    else
      let expPart : Option Int := match rest with
        | [] => some 0
        | c :: r =>
          if c == 'e' || c == 'E' then
            let (eneg, ds) := match r with
              | '-' :: d => (true, d)
              | '+' :: d => (false, d)
              | d => (false, d)
            if ds.isEmpty || !ds.all (fun c => '0' ≤ c && c ≤ '9') then none
            else
              let v : Int := (String.ofList ds).toNat!
              some (if eneg then -v else v)
          else none
      match expPart with
      | none => none
      | some ex =>
        let m := (String.ofList (whole ++ frac)).toNat!
        some (sign (scaled m (ex - frac.length)))

/-- The finite float a plain scalar reads as, with YAML's `.inf` and `.nan` spellings. -/
def parseF64 (s : String) : Option Float :=
  let (unpositive, bad) :=
    if s.startsWith "+" then
      let rest := s.toList.drop 1
      (String.ofList rest, signed rest)
    else (s, false)
  if bad then none
  else if unpositive == ".inf" || unpositive == ".Inf" || unpositive == ".INF" then some (Float.ofScientific 1 false 400)
  else if s == "-.inf" || s == "-.Inf" || s == "-.INF" then some (-(Float.ofScientific 1 false 400))
  else if s == ".nan" || s == ".NaN" || s == ".NAN" then some (0 / 0)
  else match parseFloatText unpositive with
    | some f => if f.isFinite then some f else none
    | none => none

end TierCache.Yaml
