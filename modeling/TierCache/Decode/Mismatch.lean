import TierCache.Decimal.Shortest
import TierCache.Text.Quote
/-!
What a typed read reports when the data does not have the shape it wants: a value of the wrong
kind, a value out of range, too few elements, a missing or repeated field, or an unknown name.
Each report names what was found and what was expected.
-/

namespace TierCache

/-- The kind of value that was found where another was expected. -/
inductive Found where
  | bool (b : Bool)
  | unsigned (n : Nat)
  | signed (n : Int)
  | float (f : Float)
  | str (s : String)
  | unit
  | seq
  | map
  /-- A description given in full. -/
  | other (text : String)
  deriving Inhabited

/-- A double in diagnostics: every digit positionally, and `.0` on a whole number. -/
def floatDiagnostic (f : Float) : String :=
  match Decimal.Shortest.ofFloat f with
  | .nan => "NaN"
  | .infinite neg => if neg then "-inf" else "inf"
  | .finite neg s => (if neg then "-" else "") ++ s.positional true

/-- How a found value is named in a report. -/
def Found.describe : Found → String
  | .bool b => s!"boolean `{b}`"
  | .unsigned n => s!"integer `{n}`"
  | .signed n => s!"integer `{n}`"
  | .float f => "floating point `" ++ floatDiagnostic f ++ "`"
  | .str s => "string " ++ Quote.quote s
  | .unit => "unit value"
  | .seq => "sequence"
  | .map => "map"
  | .other text => text

/-- `a`, `a` or `b`, or one of `a`, `b`, `c`: the names a value could have had. -/
def oneOf (names : List String) : String :=
  let tick (n : String) := "`" ++ n ++ "`"
  match names with
  | [] => "there are no variants"
  | [a] => tick a
  | [a, b] => tick a ++ " or " ++ tick b
  | _ => "one of " ++ ", ".intercalate (names.map tick)

/-- A report of data that does not fit the wanted shape. -/
inductive Mismatch where
  | invalidType (found : Found) (expected : String)
  | invalidValue (found : Found) (expected : String)
  | invalidLength (len : Nat) (expected : String)
  | unknownVariant (name : String) (expected : List String)
  | missingField (name : String)
  | duplicateField (name : String)
  | custom (text : String)
  deriving Inhabited

/-- The text of a report. -/
def Mismatch.message : Mismatch → String
  | .invalidType f e => "invalid type: " ++ f.describe ++ ", expected " ++ e
  | .invalidValue f e => "invalid value: " ++ f.describe ++ ", expected " ++ e
  | .invalidLength n e => s!"invalid length {n}, expected " ++ e
  | .unknownVariant n e => "unknown variant `" ++ n ++ "`, expected " ++ oneOf e
  | .missingField n => "missing field `" ++ n ++ "`"
  | .duplicateField n => "duplicate field `" ++ n ++ "`"
  | .custom t => t

end TierCache
