/-!
Quoting text for diagnostics: the string between double quotes, with quote, backslash and the
characters that do not print written as escapes (`\n`, `\t`, `\r`, `\0`, `\u{1b}`).
-/

namespace TierCache.Quote

/-- Lowercase hex digits of `n`, at least one. -/
def hexDigits (n : Nat) : String :=
  String.ofList (Nat.toDigits 16 n)

/-- Characters that diagnostics write as `\u{..}`: controls, format and separator characters,
combining marks, private use and noncharacters. -/
def isHidden (c : Char) : Bool :=
  let n := c.toNat
  n < 0x20 || (0x7F ≤ n && n ≤ 0x9F) || n == 0xAD || (0x300 ≤ n && n ≤ 0x36F) ||
  (0x483 ≤ n && n ≤ 0x489) || (0x591 ≤ n && n ≤ 0x5BD) || n == 0x61C || n == 0x6DD ||
  n == 0x70F || n == 0x180E || (0x1AB0 ≤ n && n ≤ 0x1AFF) || (0x1DC0 ≤ n && n ≤ 0x1DFF) ||
  (0x200B ≤ n && n ≤ 0x200F) || (0x2028 ≤ n && n ≤ 0x202E) || (0x2060 ≤ n && n ≤ 0x206F) ||
  (0x20D0 ≤ n && n ≤ 0x20FF) || (0xD800 ≤ n && n ≤ 0xF8FF) || (0xFE00 ≤ n && n ≤ 0xFE0F) ||
  (0xFE20 ≤ n && n ≤ 0xFE2F) || n == 0xFEFF || (0xFFF0 ≤ n && n ≤ 0xFFFB) || n == 0xFFFE ||
  n == 0xFFFF || (0xE0000 ≤ n && n ≤ 0xE0FFF) || n ≥ 0xF0000

/-- One character inside a diagnostic quote. -/
def escapeChar (c : Char) : String :=
  match c with
  | '"' => "\\\""
  | '\\' => "\\\\"
  | '\n' => "\\n"
  | '\r' => "\\r"
  | '\t' => "\\t"
  | '\x00' => "\\0"
  | c => if isHidden c then "\\u\x7b" ++ hexDigits c.toNat ++ "\x7d" else String.singleton c

/-- The text between double quotes, escaped for a diagnostic. -/
def quote (s : String) : String :=
  "\"" ++ String.join (s.toList.map escapeChar) ++ "\""

end TierCache.Quote
