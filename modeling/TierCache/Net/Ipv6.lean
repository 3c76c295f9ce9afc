/-!
# IPv6 addresses

An address is eight 16-bit pieces. Text is read as the URL standard reads a bracketed host:
groups of one to four hex digits separated by colons, at most one `::` standing for a run of
zero pieces, and optionally a dotted IPv4 address in place of the last two pieces. An address is
written in its canonical form: lowercase hex without leading zeros, the first longest run of
two or more zero pieces written `::`, and an IPv4-mapped address as `::ffff:` and dotted quad.
-/

namespace TierCache

/-- An IPv6 address as its eight pieces. -/
structure Ipv6 where
  pieces : Array Nat
  deriving Repr, DecidableEq, Inhabited

namespace Ipv6

/-- The value of a hex digit. -/
def hexValue (c : Char) : Option Nat :=
  if '0' ≤ c && c ≤ '9' then some (c.toNat - '0'.toNat)
  else if 'a' ≤ c && c ≤ 'f' then some (c.toNat - 'a'.toNat + 10)
  else if 'A' ≤ c && c ≤ 'F' then some (c.toNat - 'A'.toNat + 10)
  else none

/-- Up to four hex digits from `i`: their value and the index after them. -/
def hexGroup (a : Array Char) (i : Nat) : Nat × Nat :=
  let rec go : Nat → Nat → Nat → Nat × Nat
    | 0, j, v => (v, j)
    | n + 1, j, v =>
      match a[j]?.bind hexValue with
      | some d => go n (j + 1) (v * 16 + d)
      | none => (v, j)
  go 4 i 0

/-- Where reading the hex groups stopped: the index, the next piece, the piece a `::` stands
before, the pieces so far, and whether a dotted IPv4 part starts at the index. -/
structure Groups where
  index : Nat
  pointer : Nat
  compress : Option Nat
  pieces : Array Nat
  dotted : Bool

/-- Reads hex groups until the text ends or a dotted part starts; `none` when the text is not
an address. -/
def readGroups (a : Array Char) : Nat → Groups → Option Groups
  | 0, _ => none
  | fuel + 1, g =>
    if g.index ≥ a.size then some g
    else if g.pointer == 8 then none
    else if a[g.index]? == some ':' then
      if g.compress.isSome then none
      else readGroups a fuel { g with index := g.index + 1, pointer := g.pointer + 1, compress := some (g.pointer + 1) }
    else
      let start := g.index
      let (value, j) := hexGroup a start
      match a[j]? with
      | some '.' =>
        if j == start || g.pointer > 6 then none else some { g with index := start, dotted := true }
      | some ':' =>
        if j + 1 == a.size then none
        else readGroups a fuel { g with index := j + 1, pointer := g.pointer + 1, pieces := g.pieces.set! g.pointer value }
      | some _ => none
      | none => readGroups a fuel { g with index := j, pointer := g.pointer + 1, pieces := g.pieces.set! g.pointer value }

/-- Up to three decimal digits of a dotted part from `i`, with no leading zero and at most 255:
its value and the index after it. -/
def decimalGroup (a : Array Char) (i : Nat) : Option (Nat × Nat) :=
  let rec go : Nat → Nat → Option Nat → Option (Option Nat × Nat)
    | 0, j, v => some (v, j)
    | n + 1, j, v =>
      match a[j]? with
      | some c =>
        if '0' ≤ c && c ≤ '9' then
          let d := c.toNat - '0'.toNat
          match v with
          | none => go n (j + 1) (some d)
          | some 0 => none
          | some x => if x * 10 + d > 255 then none else go n (j + 1) (some (x * 10 + d))
        else some (v, j)
      | none => some (v, j)
  match go (a.size + 1) i none with
  | some (some v, j) => some (v, j)
  | _ => none

/-- Reads the dotted IPv4 part into the last two pieces: exactly four numbers. -/
def readDotted (a : Array Char) : Nat → Groups → Nat → Option Groups
  | 0, _, _ => none
  | fuel + 1, g, seen =>
    if g.index ≥ a.size then (if seen == 4 then some g else none)
    else
      let i := if seen > 0 then (if seen < 4 && a[g.index]? == some '.' then some (g.index + 1) else none)
        else some g.index
      match i with
      | none => none
      | some i =>
        match decimalGroup a i with
        | none => none
        | some (v, j) =>
          let pieces := g.pieces.set! g.pointer (g.pieces.getD g.pointer 0 * 256 + v)
          let seen := seen + 1
          let pointer := if seen == 2 || seen == 4 then g.pointer + 1 else g.pointer
          readDotted a fuel { g with index := j, pieces, pointer } seen

/-- Moves the pieces read after a `::` to the end, leaving zeros in between. -/
def expand (pieces : Array Nat) (compress pointer : Nat) : Array Nat :=
  let rec go : Nat → Nat → Array Nat → Array Nat
    | 0, _, ps => ps
    | swaps + 1, p, ps => go swaps (p - 1) (ps.swapIfInBounds p (compress + swaps))
  go (pointer - compress) 7 pieces

/-- Reads the text between the brackets of a host. -/
def parse? (s : String) : Option Ipv6 :=
  let a := s.toList.toArray
  if a.size < 2 then none
  else
    let start : Option Groups :=
      if a[0]? == some ':' then
        if a[1]? != some ':' then none
        else some ⟨2, 1, some 1, Array.replicate 8 0, false⟩
      else some ⟨0, 0, none, Array.replicate 8 0, false⟩
    match start.bind (readGroups a (a.size + 1)) with
    | none => none
    | some g =>
      let g := if g.dotted then (if g.pointer > 6 then none else readDotted a (a.size + 1) g 0) else some g
      match g with
      | none => none
      | some g =>
        if g.index < a.size then none
        else match g.compress with
          | some c => some ⟨expand g.pieces c g.pointer⟩
          | none => if g.pointer != 8 then none else some ⟨g.pieces⟩

/-- Lowercase hex of a piece, without leading zeros. -/
def hexPiece (n : Nat) : String := String.ofList (Nat.toDigits 16 n)

/-- Pieces joined by colons. -/
def joinPieces (ps : List Nat) : String := ":".intercalate (ps.map hexPiece)

/-- The first longest run of zero pieces, as start and length. -/
def longestZeroRun (ps : List Nat) : Nat × Nat :=
  let step := fun ((best, cur, i) : (Nat × Nat) × (Nat × Nat) × Nat) (p : Nat) =>
    if p == 0 then
      let cur := if cur.2 == 0 then (i, 1) else (cur.1, cur.2 + 1)
      ((if cur.2 > best.2 then cur else best), cur, i + 1)
    else (best, (0, 0), i + 1)
  (ps.foldl step ((0, 0), (0, 0), 0)).1

/-- The canonical text of an address. -/
def render (a : Ipv6) : String :=
  let ps := a.pieces.toList
  match ps with
  | [0, 0, 0, 0, 0, 0xffff, hi, lo] =>
    "::ffff:" ++ s!"{hi / 256}.{hi % 256}.{lo / 256}.{lo % 256}"
  | _ =>
    let (start, len) := longestZeroRun ps
    if len > 1 then joinPieces (ps.take start) ++ "::" ++ joinPieces (ps.drop (start + len))
    else joinPieces ps

end Ipv6

end TierCache
