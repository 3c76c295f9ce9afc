/-!
Lengths of time in nanoseconds, and their diagnostic text: the largest unit among seconds,
milliseconds, microseconds and nanoseconds in which the whole part is not zero, with the fraction
written without trailing zeros (`1.5s`, `2ms`, `1.001s`, `0ns`).
-/

namespace TierCache

/-- A nonnegative length of time. -/
structure Span where
  nanos : Nat
  deriving Repr, DecidableEq, Inhabited

namespace Span

def ofMillis (ms : Nat) : Span := ⟨ms * 1000000⟩
def ofSecs (s : Nat) : Span := ⟨s * 1000000000⟩

/-- `whole.frac` with the fraction's trailing zeros dropped; `scale` is the unit in nanoseconds. -/
def decimal (whole frac scale : Nat) (unit : String) : String :=
  let digits := (toString (frac + scale)).toList.drop 1
  let trimmed := (digits.reverse.dropWhile (· == '0')).reverse
  toString whole ++ (if trimmed.isEmpty then "" else "." ++ String.ofList trimmed) ++ unit

/-- The diagnostic text of a span. -/
def debug (d : Span) : String :=
  let n := d.nanos
  if n ≥ 1000000000 then decimal (n / 1000000000) (n % 1000000000) 1000000000 "s"
  else if n ≥ 1000000 then decimal (n / 1000000) (n % 1000000) 1000000 "ms"
  else if n ≥ 1000 then decimal (n / 1000) (n % 1000) 1000 "µs"
  else toString n ++ "ns"

end Span
end TierCache
