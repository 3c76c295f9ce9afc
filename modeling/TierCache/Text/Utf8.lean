/-!
UTF-8 in both directions. Decoding accepts exactly the well-formed encodings: no overlong form,
no surrogate code point, nothing above U+10FFFF, no stray continuation byte.
-/

namespace TierCache.Utf8

/-- Whether `b` is a continuation byte `10xxxxxx`. -/
def isCont (b : UInt8) : Bool := b &&& 0xC0 == 0x80

/-- The low six bits of a continuation byte. -/
def payload (b : UInt8) : Nat := b.toNat &&& 0x3F

/-- The scalar values encoded by `bs`, read onto `acc` in reverse, or `none` at the first
malformed sequence. -/
def decodeRev : List UInt8 → List Char → Option (List Char)
  | [], acc => some acc
  | b0 :: rest, acc =>
    if b0 < 0x80 then decodeRev rest (Char.ofNat b0.toNat :: acc)
    else if b0 < 0xC2 then none
    else if b0 < 0xE0 then
      match rest with
      | b1 :: rest =>
        if isCont b1 then decodeRev rest (Char.ofNat ((b0.toNat &&& 0x1F) <<< 6 ||| payload b1) :: acc)
        else none
      | [] => none
    else if b0 < 0xF0 then
      match rest with
      | b1 :: b2 :: rest =>
        let lo : UInt8 := if b0 == 0xE0 then 0xA0 else 0x80
        let hi : UInt8 := if b0 == 0xED then 0x9F else 0xBF
        if lo ≤ b1 && b1 ≤ hi && isCont b2 then
          decodeRev rest
            (Char.ofNat ((b0.toNat &&& 0x0F) <<< 12 ||| payload b1 <<< 6 ||| payload b2) :: acc)
        else none
      | _ => none
    else if b0 < 0xF5 then
      match rest with
      | b1 :: b2 :: b3 :: rest =>
        let lo : UInt8 := if b0 == 0xF0 then 0x90 else 0x80
        let hi : UInt8 := if b0 == 0xF4 then 0x8F else 0xBF
        if lo ≤ b1 && b1 ≤ hi && isCont b2 && isCont b3 then
          decodeRev rest (Char.ofNat ((b0.toNat &&& 0x07) <<< 18 ||| payload b1 <<< 12 |||
            payload b2 <<< 6 ||| payload b3) :: acc)
        else none
      | _ => none
    else none

/-- The text encoded by `bs`, or `none` if it is not well-formed UTF-8. -/
def decode (bs : List UInt8) : Option String :=
  (decodeRev bs []).map fun cs => String.ofList cs.reverse

/-- The bytes of a string. -/
def encode (s : String) : List UInt8 := s.toUTF8.toList

/-- The UTF-8 bytes of one code point below U+110000, surrogates included (as a lax encoder
writes them). -/
def encodePoint (n : Nat) : List UInt8 :=
  if n < 0x80 then [n.toUInt8]
  else if n < 0x800 then [(0xC0 ||| n >>> 6).toUInt8, (0x80 ||| n &&& 0x3F).toUInt8]
  else if n < 0x10000 then
    [(0xE0 ||| n >>> 12).toUInt8, (0x80 ||| (n >>> 6) &&& 0x3F).toUInt8, (0x80 ||| n &&& 0x3F).toUInt8]
  else
    [(0xF0 ||| n >>> 18).toUInt8, (0x80 ||| (n >>> 12) &&& 0x3F).toUInt8,
      (0x80 ||| (n >>> 6) &&& 0x3F).toUInt8, (0x80 ||| n &&& 0x3F).toUInt8]

/-- The range a sequence's second byte must lie in, given its first byte: narrower than the
continuation range after `E0`, `ED`, `F0` and `F4`, which would otherwise start an overlong
form, a surrogate, or a value above U+10FFFF. -/
def secondRange (b0 : UInt8) : UInt8 × UInt8 :=
  if b0 == 0xE0 then (0xA0, 0xBF)
  else if b0 == 0xED then (0x80, 0x9F)
  else if b0 == 0xF0 then (0x90, 0xBF)
  else if b0 == 0xF4 then (0x80, 0x8F)
  else (0x80, 0xBF)

/-- The number of bytes a sequence opened by `b0` has after it. -/
def tailLength (b0 : UInt8) : Nat := if b0 < 0xE0 then 1 else if b0 < 0xF0 then 2 else 3

/-- The code point of a complete sequence: its first byte and continuation bytes. -/
def pointOf (b0 : UInt8) (tail : List UInt8) : Char :=
  let lead := if tail.length == 1 then b0.toNat &&& 0x1F else if tail.length == 2 then b0.toNat &&& 0x0F
    else b0.toNat &&& 0x07
  Char.ofNat (tail.foldl (fun acc b => acc <<< 6 ||| payload b) lead)

/-- How many bytes after a first byte `b0` continue its sequence correctly, at most `need`. -/
def validTail (b0 : UInt8) (need : Nat) (bs : List UInt8) : Nat :=
  match bs with
  | b1 :: rest =>
    let (lo, hi) := secondRange b0
    if need > 0 && lo ≤ b1 && b1 ≤ hi then 1 + ((rest.take (need - 1)).takeWhile isCont).length else 0
  | [] => 0

/-- The text of `bs` with every malformed part replaced by U+FFFD, read onto `acc` in reverse. A
byte that cannot open a sequence is one part; so is the longest opening of a sequence that is
not completed. -/
def decodeLossyRev (bs : List UInt8) (acc : List Char) : List Char :=
  match bs with
  | [] => acc
  | b0 :: rest =>
    if b0 < 0x80 then decodeLossyRev rest (Char.ofNat b0.toNat :: acc)
    else if b0 < 0xC2 || b0 ≥ 0xF5 then decodeLossyRev rest ('\uFFFD' :: acc)
    else
      let need := tailLength b0
      let ok := validTail b0 need rest
      if ok == need then decodeLossyRev (rest.drop need) (pointOf b0 (rest.take need) :: acc)
      else decodeLossyRev (rest.drop ok) ('\uFFFD' :: acc)
termination_by bs.length
decreasing_by all_goals (simp only [List.length_drop, List.length_cons]; omega)

/-- The text of `bs`, malformed parts replaced by U+FFFD. -/
def decodeLossy (bs : List UInt8) : String := String.ofList (decodeLossyRev bs []).reverse

end TierCache.Utf8
