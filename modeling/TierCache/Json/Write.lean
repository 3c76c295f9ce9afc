import TierCache.Json.Value
import TierCache.Decimal.Shortest
/-!
The compact written form of JSON: no blanks, members in key order, strings escaped only where
JSON demands it (quote, backslash, control characters), and doubles as their shortest decimal.
-/

namespace TierCache

open Decimal

/-- How a stored double is written: the fewest digits that read back, positionally between
`1e-5` and `1e16` with a `.0` on whole numbers, otherwise with an exponent that always carries
its sign (`1e+300`, `2.5e-8`). -/
def JsonNumber.renderFloat (f : Float) : String :=
  match Shortest.ofFloat f with
  | .finite negative s =>
    let sign := if negative then "-" else ""
    if s.digits = 0 then sign ++ "0.0"
    else
      let lead := s.lead
      if -5 ≤ lead && lead < 16 then sign ++ s.positional true
      else sign ++ s.exponential true
  | .nan => "null"
  | .infinite _ => "null"

/-- The written form of a number. -/
def JsonNumber.render : JsonNumber → String
  | .nat n => toString n
  | .neg n => toString n
  | .float f => JsonNumber.renderFloat f

/-- Two lowercase hex digits. -/
def hexByte (n : Nat) : String :=
  let d (k : Nat) : Char := if k < 10 then Char.ofNat (48 + k) else Char.ofNat (87 + k)
  String.ofList [d (n / 16 % 16), d (n % 16)]

/-- One character inside a written string. -/
def escapeChar (c : Char) : String :=
  match c with
  | '"' => "\\\""
  | '\\' => "\\\\"
  | '\n' => "\\n"
  | '\r' => "\\r"
  | '\t' => "\\t"
  | '\x08' => "\\b"
  | '\x0c' => "\\f"
  | c => if c.toNat < 0x20 then "\\u00" ++ hexByte c.toNat else String.singleton c

/-- A string in quotes with the escapes JSON requires. -/
def quoteJson (s : String) : String :=
  "\"" ++ String.join (s.toList.map escapeChar) ++ "\""

namespace Json

mutual
/-- The compact written form. -/
def render : Json → String
  | .null => "null"
  | .bool true => "true"
  | .bool false => "false"
  | .num n => n.render
  | .str s => quoteJson s
  | .arr items => "[" ++ renderItems items ++ "]"
  | .obj ms => "\x7b" ++ renderMembers ms ++ "\x7d"

/-- Array items separated by commas. -/
def renderItems : List Json → String
  | [] => ""
  | [x] => render x
  | x :: rest => render x ++ "," ++ renderItems rest

/-- Object members separated by commas. -/
def renderMembers : List (String × Json) → String
  | [] => ""
  | [(k, v)] => quoteJson k ++ ":" ++ render v
  | (k, v) :: rest => quoteJson k ++ ":" ++ render v ++ "," ++ renderMembers rest
end

end Json
end TierCache
