import TierCache.Net.Ipv6
/-!
# Socket addresses

A socket address is an IPv4 address and a port, `127.0.0.1:8080`, or a bracketed IPv6 address,
optionally with a numeric scope, and a port, `[::1]:8080`, `[fe80::1%2]:80`. Host names are not
addresses.

Every number is read greedily and the whole run of digits must fit: a dotted part has at most
three digits, no leading zero and a value of at most 255; a hex group has at most four digits;
a port is at most 65535 and may have leading zeros. An IPv6 address has at most one `::`, and
may end with a dotted IPv4 address standing for its last two pieces, though not before the `::`.
-/

namespace TierCache

/-- A socket address. -/
inductive SocketAddr where
  /-- An IPv4 address, as its four numbers, and a port. -/
  | v4 (a b c d : Nat) (port : Nat)
  /-- An IPv6 address, a scope (zero for none) and a port. -/
  | v6 (ip : Ipv6) (scope : Nat) (port : Nat)
  deriving Repr, DecidableEq, Inhabited

namespace SocketAddr

/-- The value of a digit in `radix` (10 or 16). -/
def digitValue (radix : Nat) (c : Char) : Option Nat :=
  if c.isDigit then some (c.toNat - '0'.toNat)
  else if radix == 16 && 'a' ≤ c && c ≤ 'f' then some (c.toNat - 'a'.toNat + 10)
  else if radix == 16 && 'A' ≤ c && c ≤ 'F' then some (c.toNat - 'A'.toNat + 10)
  else none

/-- The longest run of digits at the start of `cs`, with the rest. -/
def digitRun (radix : Nat) : List Char → List Nat × List Char
  | c :: cs =>
    match digitValue radix c with
    | some d => let (ds, rest) := digitRun radix cs; (d :: ds, rest)
    | none => ([], c :: cs)
  | [] => ([], [])

/-- Reads a number: the whole run of digits at the start, which must be non-empty, no longer
than `maxDigits` when there is a bound, no greater than `max`, and, unless `zeroPrefix`, free of
a leading zero before further digits. -/
def readNumber (radix : Nat) (maxDigits : Option Nat) (zeroPrefix : Bool) (max : Nat)
    (cs : List Char) : Option (Nat × List Char) :=
  let (ds, rest) := digitRun radix cs
  let value := ds.foldl (fun v d => v * radix + d) 0
  if ds.isEmpty then none
  else if maxDigits.any (ds.length > ·) then none
  else if value > max then none
  else if !zeroPrefix && ds.head? == some 0 && ds.length > 1 then none
  else some (value, rest)

/-- Reads the character `c`. -/
def readChar (c : Char) : List Char → Option (List Char)
  | d :: rest => if d == c then some rest else none
  | [] => none

/-- Reads a dotted IPv4 address: four numbers separated by dots. -/
def readIpv4 (cs : List Char) : Option ((Nat × Nat × Nat × Nat) × List Char) := do
  let (a, cs) ← readNumber 10 (some 3) false 255 cs
  let (b, cs) ← readNumber 10 (some 3) false 255 (← readChar '.' cs)
  let (c, cs) ← readNumber 10 (some 3) false 255 (← readChar '.' cs)
  let (d, cs) ← readNumber 10 (some 3) false 255 (← readChar '.' cs)
  return ((a, b, c, d), cs)

/-- Reads what follows the separator before group `i`; the first group has none. -/
def afterSeparator (i : Nat) (cs : List Char) : Option (List Char) :=
  if i == 0 then some cs else readChar ':' cs

/-- Reads up to `limit` colon-separated groups from group `i` on, where at least two groups are
left a dotted IPv4 address may take the place of two and ends the run: the groups read, whether
an IPv4 address ended them, and the rest. -/
def readGroups (limit : Nat) (i : Nat) (cs : List Char) : Nat → List Nat × Bool × List Char
  | 0 => ([], false, cs)
  | fuel + 1 =>
    if i ≥ limit then ([], false, cs) else
    let dotted := if i + 1 < limit then
        (afterSeparator i cs).bind readIpv4
      else none
    match dotted with
    | some ((a, b, c, d), rest) => ([a * 256 + b, c * 256 + d], true, rest)
    | none =>
      match (afterSeparator i cs).bind (readNumber 16 (some 4) true 0xffff) with
      | some (g, rest) =>
        let (gs, dotted, rest) := readGroups limit (i + 1) rest fuel
        (g :: gs, dotted, rest)
      | none => ([], false, cs)

/-- Reads an IPv6 address: eight groups, or the groups before a `::` and those after it. -/
def readIpv6 (cs : List Char) : Option (Ipv6 × List Char) := do
  let (head, dotted, rest) := readGroups 8 0 cs 8
  if head.length == 8 then return (⟨head.toArray⟩, rest)
  if dotted then none
  let rest ← readChar ':' rest >>= readChar ':'
  let (tail, _, rest) := readGroups (8 - (head.length + 1)) 0 rest 8
  let zeros := List.replicate (8 - head.length - tail.length) 0
  return (⟨(head ++ zeros ++ tail).toArray⟩, rest)

/-- Reads a port after its colon. -/
def readPort (cs : List Char) : Option (Nat × List Char) :=
  readChar ':' cs >>= readNumber 10 none true 65535

/-- Reads `%` and a scope number, if they come next. -/
def readScope (cs : List Char) : Nat × List Char :=
  match readChar '%' cs >>= readNumber 10 none true 0xffffffff with
  | some r => r
  | none => (0, cs)

/-- Reads an IPv4 socket address. -/
def readV4 (cs : List Char) : Option (SocketAddr × List Char) := do
  let ((a, b, c, d), cs) ← readIpv4 cs
  let (port, cs) ← readPort cs
  return (.v4 a b c d port, cs)

/-- Reads a bracketed IPv6 socket address. -/
def readV6 (cs : List Char) : Option (SocketAddr × List Char) := do
  let (ip, cs) ← readIpv6 (← readChar '[' cs)
  let (scope, cs) := readScope cs
  let (port, cs) ← readPort (← readChar ']' cs)
  return (.v6 ip scope port, cs)

/-- Reads a socket address that is the whole text. The IPv4 form is tried first; what it
leaves over is not read again as IPv6. -/
def parse? (s : String) : Option SocketAddr :=
  let cs := s.toList
  match readV4 cs <|> readV6 cs with
  | some (a, []) => some a
  | _ => none

/-- The reason a text is not a socket address. -/
def invalidText : String := "invalid socket address syntax"

/-- The port. -/
def port : SocketAddr → Nat
  | v4 _ _ _ _ p => p
  | v6 _ _ p => p

/-- The text of an address: `a.b.c.d:port`, or the canonical IPv6 text in brackets, with
`%scope` when there is a scope, and the port. -/
def render : SocketAddr → String
  | v4 a b c d p => s!"{a}.{b}.{c}.{d}:{p}"
  | v6 ip scope p =>
    "[" ++ ip.render ++ (if scope == 0 then "" else "%" ++ toString scope) ++ "]:" ++ toString p

end SocketAddr

end TierCache
