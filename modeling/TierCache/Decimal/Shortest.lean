/-!
The shortest decimal that reads back as a given double. A finite double is `m · 2^q`; every real
strictly inside the half-way points to its two neighbours reads back as it, and so do the
half-way points themselves when `m` is even (ties go to the even neighbour). For 1, 2, … 17
significant digits we look at the two points of that decimal grid next to the value; the first
grid with a point inside the interval wins, and of two such points the nearer one (the even one
on an exact tie).
-/

namespace TierCache.Decimal

/-- A decimal `digits · 10^exp` with no trailing zero in `digits` (zero is `⟨0, 0⟩`). -/
structure Scientific where
  digits : Nat
  exp : Int
  deriving Repr, DecidableEq, Inhabited

/-- The parts of a double. -/
inductive Part where
  | nan
  | infinite (negative : Bool)
  | finite (negative : Bool) (mant : Nat) (exp2 : Int)
  deriving Repr, DecidableEq

/-- Splits a double into sign, integer mantissa and binary exponent: `mant · 2^exp2`. -/
def Part.ofFloat (f : Float) : Part :=
  let bits := f.toBits.toNat
  let negative := bits >>> 63 == 1
  let field := (bits >>> 52) % 2048
  let frac := bits % Nat.pow 2 52
  if field == 2047 then (if frac == 0 then .infinite negative else .nan)
  else if field == 0 then .finite negative frac (-1074)
  else .finite negative (frac + Nat.pow 2 52) ((field : Int) - 1075)

/-- The number of decimal digits of `n` (one for zero). -/
def digitCount (n : Nat) : Nat := (Nat.toDigits 10 n).length

/-- An exact nonnegative rational `num / den`, kept as a pair of naturals. -/
structure Ratio where
  num : Nat
  den : Nat

/-- `a · 2^e` as a ratio. -/
def Ratio.ofPow2 (a : Nat) (e : Int) : Ratio :=
  if e ≥ 0 then ⟨a * Nat.pow 2 e.toNat, 1⟩ else ⟨a, Nat.pow 2 (-e).toNat⟩

/-- `a · 10^e` as a ratio. -/
def Ratio.ofPow10 (a : Nat) (e : Int) : Ratio :=
  if e ≥ 0 then ⟨a * Nat.pow 10 e.toNat, 1⟩ else ⟨a, Nat.pow 10 (-e).toNat⟩

/-- Compares two ratios by cross multiplication. -/
def Ratio.cmp (x y : Ratio) : Ordering := compare (x.num * y.den) (y.num * x.den)

/-- The decimal exponent of the leading digit of `mant · 2^exp2` (which must be positive):
the `x` with `10^x ≤ value < 10^(x+1)`. -/
def leadExponent (mant : Nat) (exp2 : Int) : Int :=
  let r := Ratio.ofPow2 mant exp2
  if r.num ≥ r.den then (digitCount (r.num / r.den) : Int) - 1
  else
    -- the least `t` with `num · 10^t ≥ den`
    let t := digitCount ((r.den + r.num - 1) / r.num - 1)
    let t := if r.num * Nat.pow 10 (t - 1) ≥ r.den then t - 1 else t
    Int.neg t

/-- Strips trailing zeros, moving them into the exponent. -/
def Scientific.normalize (digits : Nat) (exp : Int) : Scientific :=
  if digits = 0 then ⟨0, 0⟩ else
  let rec go (fuel d : Nat) (e : Int) : Scientific :=
    match fuel with
    | 0 => ⟨d, e⟩
    | fuel + 1 => if d % 10 == 0 then go fuel (d / 10) (e + 1) else ⟨d, e⟩
  go (digitCount digits) digits exp

/-- The shortest decimal that reads back as the positive double `mant · 2^exp2`. -/
def shortestPositive (mant : Nat) (exp2 : Int) : Scientific :=
  let even := mant % 2 == 0
  -- half-way points to the neighbours, as ratios
  let upper := Ratio.ofPow2 (2 * mant + 1) (exp2 - 1)
  let lower :=
    if mant == Nat.pow 2 52 && exp2 > -1074 then Ratio.ofPow2 (4 * mant - 1) (exp2 - 2)
    else Ratio.ofPow2 (2 * mant - 1) (exp2 - 1)
  let value := Ratio.ofPow2 mant exp2
  let inside (r : Ratio) : Bool :=
    match r.cmp lower, r.cmp upper with
    | .gt, .lt => true
    | .eq, .lt => even
    | .gt, .eq => even
    | _, _ => false
  let lead := leadExponent mant exp2
  let rec search (fuel n : Nat) : Scientific :=
    match fuel with
    | 0 => ⟨mant, exp2⟩
    | fuel + 1 =>
      let k : Int := lead - (n : Int) + 1
      -- the grid points `lo · 10^k ≤ value < (lo + 1) · 10^k`
      let scaled := Ratio.ofPow10 1 k
      let lo := (value.num * scaled.den) / (value.den * scaled.num)
      let loR := Ratio.ofPow10 lo k
      let hiR := Ratio.ofPow10 (lo + 1) k
      match inside loR, inside hiR with
      | true, false => Scientific.normalize lo k
      | false, true => Scientific.normalize (lo + 1) k
      | true, true =>
        -- the nearer of the two; an exact tie goes to the even one
        let dLo := value.num * loR.den * hiR.den - loR.num * value.den * hiR.den
        let dHi := hiR.num * value.den * loR.den - value.num * loR.den * hiR.den
        if dLo < dHi || (dLo == dHi && lo % 2 == 0) then Scientific.normalize lo k
        else Scientific.normalize (lo + 1) k
      | false, false => search fuel (n + 1)
  search 17 1

/-- A double as sign and shortest decimal. -/
inductive Shortest where
  | nan
  | infinite (negative : Bool)
  | finite (negative : Bool) (value : Scientific)
  deriving Repr, DecidableEq

/-- The shortest decimal form of a double; zero is `⟨0, 0⟩` with its sign. -/
def Shortest.ofFloat (f : Float) : Shortest :=
  match Part.ofFloat f with
  | .nan => .nan
  | .infinite neg => .infinite neg
  | .finite neg mant e => if mant = 0 then .finite neg ⟨0, 0⟩ else .finite neg (shortestPositive mant e)

/-- `n` zeros. -/
def zeros (n : Nat) : String := String.ofList (List.replicate n '0')

/-- The digits of a decimal written without exponent: `1e21` is `1000000000000000000000`,
`1e-10` is `0.0000000001`; `pointZero` adds `.0` to a whole number. -/
def Scientific.positional (s : Scientific) (pointZero : Bool) : String :=
  let ds := toString s.digits
  let n := ds.length
  if s.exp ≥ 0 then
    ds ++ zeros s.exp.toNat ++ (if pointZero then ".0" else "")
  else
    let frac := (-s.exp).toNat
    if frac < n then
      String.ofList (ds.toList.take (n - frac)) ++ "." ++ String.ofList (ds.toList.drop (n - frac))
    else "0." ++ zeros (frac - n) ++ ds

/-- The decimal exponent of the leading digit. -/
def Scientific.lead (s : Scientific) : Int := s.exp + (digitCount s.digits : Int) - 1

/-- The digits with a point after the first one, then `e` and the exponent of that digit;
`plus` writes a `+` before a nonnegative exponent. -/
def Scientific.exponential (s : Scientific) (plus : Bool) : String :=
  let ds := (toString s.digits).toList
  let mantissa := match ds with
    | [d] => String.singleton d
    | d :: rest => String.singleton d ++ "." ++ String.ofList rest
    | [] => "0"
  let x := s.lead
  mantissa ++ "e" ++ (if x < 0 then "-" else if plus then "+" else "") ++ toString x.natAbs

end TierCache.Decimal
