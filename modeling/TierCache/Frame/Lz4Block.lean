/-!
The LZ4 block format. A block is a run of sequences; each sequence is a token (literal count in
the high nibble, match length less four in the low nibble), the literal count's extension bytes,
the literals, a two-byte little-endian offset back into the output, and the match length's
extension bytes. The last sequence has literals only. A nibble of 15 continues in bytes of 255
until a byte below 255.

Decoding accepts exactly what the reference safe decoder accepts. It runs a quick loop while the
output has room and a careful loop near the end. Both refuse a match that reaches back before the
start of the output and a count that runs past the input's margin. The careful loop also wants the
last sequence to end the input exactly and the last five bytes of output to be literals, except
where its shortcut for short sequences skips those margins.
-/

namespace TierCache.Lz4

/-- Appends the extension bytes of a count past 15: runs of 255, then the rest. -/
def pushCount (out : ByteArray) (n : Nat) : ByteArray :=
  let rec go (fuel : Nat) (out : ByteArray) (n : Nat) : ByteArray :=
    match fuel with
    | 0 => out.push n.toUInt8
    | fuel + 1 => if n ≥ 255 then go fuel (out.push 255) (n - 255) else out.push n.toUInt8
  go (n / 255 + 1) out n

/-- Appends bytes `src[lo, hi)`. -/
def pushRange (out src : ByteArray) (lo hi : Nat) : ByteArray :=
  out ++ src.extract lo hi

/-- Appends one sequence: the literals `src[anchor, ip)`, then a match of `mlen ≥ 4` bytes at
distance `offset`. -/
def pushSequence (out src : ByteArray) (anchor ip mlen offset : Nat) : ByteArray :=
  let lits := ip - anchor
  let ml := mlen - 4
  let token := (if lits ≥ 15 then 15 else lits) * 16 + (if ml ≥ 15 then 15 else ml)
  let out := out.push token.toUInt8
  let out := if lits ≥ 15 then pushCount out (lits - 15) else out
  let out := pushRange out src anchor ip
  let out := (out.push (offset % 256).toUInt8).push (offset / 256 % 256).toUInt8
  if ml ≥ 15 then pushCount out (ml - 15) else out

/-- Appends the closing sequence: the literals `src[anchor, end)`. -/
def pushLastLiterals (out src : ByteArray) (anchor stop : Nat) : ByteArray :=
  let lits := stop - anchor
  let out := if lits ≥ 15 then pushCount (out.push 0xF0) (lits - 15) else out.push (lits * 16).toUInt8
  pushRange out src anchor stop

/-! ### Decoding -/

/-- The byte at `i`, zero past the end. -/
def byteAt (src : ByteArray) (i : Nat) : Nat := if h : i < src.size then src[i].toNat else 0

/-- A count's extension bytes from `ip`: the sum and the index after them. Reading may not pass
`limit`; with `check`, it may not even start at `limit`. -/
def readCount (src : ByteArray) (ip : Nat) (limit : Int) (check : Bool) : Option (Nat × Nat) :=
  if check && (ip : Int) ≥ limit then none else
  let rec go (fuel : Nat) (ip acc : Nat) : Option (Nat × Nat) :=
    match fuel with
    | 0 => none
    | fuel + 1 =>
      let s := byteAt src ip
      let ip := ip + 1
      if (ip : Int) > limit then none
      else if s == 255 then go fuel ip (acc + s) else some (acc + s, ip)
  go (src.size + 1) ip 0

/-- Appends `len` bytes copied from `offset` bytes back, one at a time so that a copy may overlap
what it writes; an offset of zero writes zeros. -/
def copyMatch (out : ByteArray) (offset len : Nat) : ByteArray :=
  let rec go (k : Nat) (out : ByteArray) : ByteArray :=
    match k with
    | 0 => out
    | k + 1 =>
      let b := if offset == 0 then 0 else byteAt out (out.size - offset)
      go k (out.push b.toUInt8)
  go len out

/-- The outcome of decoding one sequence: a malformed block, the finished output, or the place
of the next token with the output so far and whether the quick loop still runs. -/
inductive DecodeStep where
  | fail
  | finish (out : ByteArray)
  | next (ip : Nat) (out : ByteArray) (quick : Bool)

/-- A match on the careful path: it starts inside the output and leaves the output's last five
bytes to literals. -/
def carefulMatch (out : ByteArray) (offset mlen : Nat) (oend : Int) : Option ByteArray :=
  if offset > out.size then none
  else if (out.size + mlen : Int) > oend - 5 then none
  else some (copyMatch out offset mlen)

/-- The rest of a sequence from its match length nibble, on the careful path. -/
def carefulFromMatch (src out : ByteArray) (ip offset nibble : Nat) (oend : Int) : DecodeStep :=
  let len := if nibble == 15 then (readCount src ip ((src.size : Int) - 4) false).map
      fun (more, ip) => (15 + more + 4, ip)
    else some (nibble + 4, ip)
  match len with
  | none => .fail
  | some (mlen, ip) =>
    match carefulMatch out offset mlen oend with
    | none => .fail
    | some out => .next ip out false

/-- The literals of a sequence on the careful path, then its match. A run that comes within
twelve bytes of the output's end or eight bytes of the input's end must be the block's last: it
ends the input exactly and fits the output. -/
def carefulRun (src out : ByteArray) (ip token lits : Nat) (oend : Int) : DecodeStep :=
  let iend : Int := src.size
  let cpy : Int := out.size + lits
  if cpy > oend - 12 || (ip : Int) + lits > iend - 8 then
    if (ip : Int) + lits != iend || cpy > oend then .fail
    else .finish (pushRange out src ip (ip + lits))
  else
    let out := pushRange out src ip (ip + lits)
    let ip := ip + lits
    let offset := byteAt src ip + 256 * byteAt src (ip + 1)
    carefulFromMatch src out (ip + 2) offset (token % 16) oend

/-- One sequence on the careful path. A short run with room on both sides takes a shortcut that
skips the end-of-block margins; a short match with an offset of at least eight then needs no
further check. -/
def carefulStep (src out : ByteArray) (ip : Nat) (oend : Int) : DecodeStep :=
  let iend : Int := src.size
  let token := byteAt src ip
  let ip := ip + 1
  let lits := token / 16
  if lits != 15 && (ip : Int) < iend - 16 && (out.size : Int) ≤ oend - 32 then
    let out := pushRange out src ip (ip + lits)
    let ip := ip + lits
    let nibble := token % 16
    let offset := byteAt src ip + 256 * byteAt src (ip + 1)
    let ip := ip + 2
    if nibble != 15 && offset ≥ 8 && offset ≤ out.size then .next ip (copyMatch out offset (nibble + 4)) false
    else carefulFromMatch src out ip offset nibble oend
  else if lits == 15 then
    match readCount src ip (iend - 15) true with
    | none => .fail
    | some (more, ip) => carefulRun src out ip token (15 + more) oend
  else carefulRun src out ip token lits oend

/-- One sequence on the quick path, which runs while at least 64 bytes of output remain. A
sequence that comes close to either end goes over to the careful path, which it never leaves. -/
def quickStep (src out : ByteArray) (ip : Nat) (oend : Int) : DecodeStep :=
  let iend : Int := src.size
  let token := byteAt src ip
  let ip := ip + 1
  let lits := token / 16
  let run : Option (Nat × Nat) :=
    if lits == 15 then (readCount src ip (iend - 15) true).map fun (more, ip) => (15 + more, ip)
    else some (lits, ip)
  match run with
  | none => .fail
  | some (lits, ip) =>
    let careful := if lits ≥ 15 then
        (out.size + lits : Int) > oend - 32 || (ip : Int) + lits > iend - 32
      else (ip : Int) > iend - 17
    if careful then carefulRun src out ip token lits oend else
    let out := pushRange out src ip (ip + lits)
    let ip := ip + lits
    let offset := byteAt src ip + 256 * byteAt src (ip + 1)
    let ip := ip + 2
    let nibble := token % 16
    let len := if nibble == 15 then (readCount src ip (iend - 4) false).map
        fun (more, ip) => (15 + more + 4, ip)
      else some (nibble + 4, ip)
    match len with
    | none => .fail
    | some (mlen, ip) =>
      if (out.size + mlen : Int) ≥ oend - 64 then
        match carefulMatch out offset mlen oend with
        | none => .fail
        | some out => .next ip out false
      else if offset > out.size then .fail
      else .next ip (copyMatch out offset mlen) true

/-- Decodes a block into at most `cap` bytes; `none` when the block is malformed or does not
fit. The output is what the block yields, which may be shorter than `cap`. -/
def decodeBlock (src : ByteArray) (cap : Nat) : Option ByteArray :=
  let oend : Int := cap
  if cap == 0 then (if src.size == 1 && byteAt src 0 == 0 then some ByteArray.empty else none)
  else if src.size == 0 then none
  else
    let rec go (fuel : Nat) (ip : Nat) (out : ByteArray) (quick : Bool) : Option ByteArray :=
      match fuel with
      | 0 => none
      | fuel + 1 =>
        match (if quick then quickStep src out ip oend else carefulStep src out ip oend) with
        | .fail => none
        | .finish out => some out
        | .next ip out quick => go fuel ip out quick
    go (src.size + 1) 0 ByteArray.empty (oend ≥ 64)

end TierCache.Lz4
