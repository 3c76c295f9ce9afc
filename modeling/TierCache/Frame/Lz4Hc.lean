import TierCache.Frame.Lz4Block
/-!
High-compression LZ4: the match finder and the three ways of choosing sequences that its levels
use.

* Levels 1 and 2 keep two hash tables, of 4-byte and 8-byte prefixes, and take the first
  usable candidate.
* Levels 3 to 9 keep a hash chain of earlier positions and try a number of candidates that
  doubles with each level; a found match may be shortened or dropped when a longer one starts
  inside it.
* Levels 10 to 12 price every way to reach each position inside a window of 4096 bytes and
  keep the cheapest.

Positions are indexed from 65536 on, so that an empty table entry (zero) lies out of reach, and
a match may reach back at most 65535 bytes. The last five bytes are always literals and no
match starts in the last twelve.
-/

namespace TierCache.Lz4

/-- Where indices start. -/
def base : Nat := 65536
/-- The farthest a match may reach back. -/
def maxDistance : Nat := 65535
/-- The shortest match. -/
def minMatch : Nat := 4

/-- The byte at `i`, zero past the end. -/
def rd (src : ByteArray) (i : Int) : Nat :=
  if i < 0 then 0 else byteAt src i.toNat

/-- Two bytes, little-endian. -/
def read16 (src : ByteArray) (i : Int) : Nat := rd src i + 256 * rd src (i + 1)

/-- Four bytes, little-endian. -/
def read32 (src : ByteArray) (i : Int) : Nat := read16 src i + 65536 * read16 src (i + 2)

/-- Eight bytes, little-endian. -/
def read64 (src : ByteArray) (i : Int) : Nat := read32 src i + Nat.pow 2 32 * read32 src (i + 4)

/-- The 15-bit hash of four bytes. -/
def hash4 (v : Nat) : Nat := (v * 2654435761 % Nat.pow 2 32) >>> 17

/-- How many bytes from `a` equal those from `b`, not reaching past `limit` from `a`. -/
def commonLength (src : ByteArray) (a b : Int) (limit : Int) : Nat :=
  let rec go (fuel : Nat) (k : Nat) : Nat :=
    match fuel with
    | 0 => k
    | fuel + 1 => if a + k < limit && rd src (a + k) == rd src (b + k) then go fuel (k + 1) else k
  go (limit - a).toNat 0

/-- How many bytes before `ip` equal those before `m`, going back no further than `iMin` and
`mMin`; the count is returned negated. -/
def commonBack (src : ByteArray) (ip m iMin mMin : Int) : Int :=
  let least := max (iMin - ip) (mMin - m)
  let rec go (fuel : Nat) (back : Int) : Int :=
    match fuel with
    | 0 => back
    | fuel + 1 =>
      if back > least && rd src (ip + back - 1) == rd src (m + back - 1) then go fuel (back - 1)
      else back
  go (-least).toNat 0

/-- The `k`-th byte of a repeating four-byte pattern. -/
def patternByte (pattern k : Nat) : Nat := (pattern >>> (8 * (k % 4))) % 256

/-- How many bytes from `p` (before `stop`) follow the repeating pattern. -/
def patternLength (src : ByteArray) (p stop : Int) (pattern : Nat) : Nat :=
  let rec go (fuel : Nat) (k : Nat) : Nat :=
    match fuel with
    | 0 => k
    | fuel + 1 => if p + k < stop && rd src (p + k) == patternByte pattern k then go fuel (k + 1) else k
  go (stop - p).toNat 0

/-- How many bytes before `p` (not before `low`) follow the pattern, read backwards from its
last byte. -/
def patternLengthBack (src : ByteArray) (p low : Int) (pattern : Nat) : Nat :=
  let rec go (fuel : Nat) (k : Nat) : Nat :=
    match fuel with
    | 0 => k
    | fuel + 1 =>
      if p - k > low && rd src (p - k - 1) == patternByte pattern (3 - k % 4) then go fuel (k + 1) else k
  go (p - low).toNat 0

/-- The hash table and the chain of earlier positions with the same hash. -/
structure Tables where
  heads : Array Nat
  links : Array Nat
  nextToUpdate : Nat

/-- Empty tables: no position is known yet. -/
def Tables.empty : Tables := ⟨Array.replicate 32768 0, Array.replicate 65536 0, base⟩

/-- The link stored for an index; the chain keeps the last 65536 indices. -/
def Tables.link (t : Tables) (idx : Nat) : Nat := t.links.getD (idx % 65536) 0

/-- Enters every index from the last entered up to `target` (excluded). -/
def Tables.insertUpTo (t : Tables) (src : ByteArray) (target : Nat) : Tables :=
  let rec go (fuel : Nat) (t : Tables) (idx : Nat) : Tables :=
    match fuel with
    | 0 => { t with nextToUpdate := idx }
    | fuel + 1 =>
      if idx < target then
        let h := hash4 (read32 src (idx - base))
        let head := t.heads.getD h 0
        let delta := min (idx - head) maxDistance
        go fuel { t with links := t.links.set! (idx % 65536) delta, heads := t.heads.set! h idx } (idx + 1)
      else { t with nextToUpdate := idx }
  if t.nextToUpdate < target then go (target - t.nextToUpdate) t t.nextToUpdate else t

/-- A match: its length, its distance, and how far it was extended backwards (zero or
negative). A length under four is no match. -/
structure Match where
  len : Int
  off : Nat
  back : Int
  deriving Inhabited

def Match.none : Match := ⟨0, 0, 0⟩

/-- Whether an index may be read four bytes on (it is not in the last three before the start). -/
def readable (matchIndex : Nat) : Bool := (base - 1 - matchIndex : Int) % Int.pow 2 32 ≥ 3

/-- Among the positions `0, 1, …` (with steps that grow while nothing better turns up) before
`stop` into the match at `matchIndex`, the one whose link reaches furthest back: that distance
(at least 1) and the position (`chainPos` if none beats 1). -/
def Tables.furthestLink (t : Tables) (matchIndex stop chainPos : Nat) : Nat × Nat :=
  let rec scan (fuel : Nat) (pos accel dist chainPos : Nat) : Nat × Nat :=
    match fuel with
    | 0 => (dist, chainPos)
    | fuel + 1 =>
      if pos < stop then
        let cand := t.link (matchIndex + pos)
        let step := accel >>> 4
        if cand > dist then scan fuel (pos + step) 16 cand pos
        else scan fuel (pos + step) (accel + 1) dist chainPos
      else (dist, chainPos)
  scan (stop + 1) 0 16 1 chainPos

/-- State of the search along a chain. -/
structure Search where
  matchIndex : Nat
  attempts : Nat
  longest : Int
  offset : Nat
  back : Int
  chainPos : Nat
  /-- `none` while untested, then whether the source starts with a repeating pattern. -/
  repeating : Option Bool
  patternLen : Nat

/-- What the search does after a candidate: go on from a new state, or end with one. -/
inductive SearchStep where
  | next (s : Search)
  | done (s : Search)

/-- After a candidate that could not move to a better chain: jump over a run of a repeating
pattern when the chain steps one byte at a time through it, or else follow the chain's link. -/
def followChain (t : Tables) (src : ByteArray) (ip iHigh : Int) (ipIndex lowest : Nat)
    (lookBack : Int) (pattern : Nat) (patterns : Bool) (s : Search) : SearchStep :=
  let onward := SearchStep.next { s with matchIndex := s.matchIndex - t.link (s.matchIndex + s.chainPos) }
  if !(patterns && t.link s.matchIndex == 1 && s.chainPos == 0) then onward else
  let candidate := s.matchIndex - 1
  let s := match s.repeating with
    | some _ => s
    | none =>
      if pattern % 65536 == pattern >>> 16 && pattern % 256 == pattern >>> 24 then
        { s with repeating := some true, patternLen := patternLength src (ip + 4) iHigh pattern + 4 }
      else { s with repeating := some false }
  let onward := SearchStep.next { s with matchIndex := s.matchIndex - t.link (s.matchIndex + s.chainPos) }
  if !(s.repeating == some true && candidate ≥ lowest && readable candidate) then onward else
  let cPos : Int := (candidate : Int) - base
  if read32 src cPos != pattern then onward else
  let forward := patternLength src (cPos + 4) iHigh pattern + 4
  let backLen := patternLengthBack src cPos 0 pattern
  let backLen := candidate - max (candidate - backLen) lowest
  let segment := backLen + forward
  if segment ≥ s.patternLen && forward ≤ s.patternLen then
    let newIndex := candidate + forward - s.patternLen
    .next { s with matchIndex := if readable newIndex then newIndex else base }
  else
    let newIndex := candidate - backLen
    if !readable newIndex then .next { s with matchIndex := base } else
    let s := { s with matchIndex := newIndex }
    if lookBack != 0 then .next s else
    let maxML := min segment s.patternLen
    if s.longest < maxML && ipIndex - newIndex > maxDistance then .done s else
    let s := if s.longest < maxML then { s with longest := maxML, offset := ipIndex - newIndex } else s
    let d := t.link newIndex
    if d > newIndex then .done s else .next { s with matchIndex := newIndex - d }

/-- One candidate of the chain: test it, then decide where to go next. -/
def searchStep (t : Tables) (src : ByteArray) (ip iLow iHigh : Int) (ipIndex lowest : Nat)
    (pattern : Nat) (patterns swap : Bool) (s : Search) : SearchStep :=
  let lookBack : Int := ip - iLow
  let s := { s with attempts := s.attempts - 1 }
  let mPos : Int := (s.matchIndex : Int) - base
  -- a candidate is tried only if it can beat the current longest
  let (matchLength, s) :=
    if read16 src (iLow + s.longest - 1) == read16 src (mPos - lookBack + s.longest - 1) &&
        read32 src mPos == pattern then
      let back := if lookBack != 0 then commonBack src ip mPos iLow 0 else 0
      let len : Int := minMatch + commonLength src (ip + minMatch) (mPos + minMatch) iHigh - back
      if len > s.longest then (len, { s with longest := len, offset := ipIndex - s.matchIndex, back := back })
      else (len, s)
    else (0, s)
  -- move to the chain of a later position of this match when it reaches further back
  if swap && matchLength == s.longest && s.matchIndex + s.longest.toNat ≤ ipIndex then
    let (dist, chainPos) := t.furthestLink s.matchIndex (s.longest.toNat - minMatch + 1) s.chainPos
    let s := { s with chainPos := chainPos }
    if dist > 1 then
      if dist > s.matchIndex then .done s else .next { s with matchIndex := s.matchIndex - dist }
    else followChain t src ip iHigh ipIndex lowest lookBack pattern patterns s
  else followChain t src ip iHigh ipIndex lowest lookBack pattern patterns s

/-- Searches the chain at `ip` for a match longer than `longest` that may also extend back as
far as `iLow` and forward up to `iHigh`, trying at most `maxAttempts` candidates. With
`patterns`, runs of a repeating pattern are jumped over; with `swap`, the search moves to the
chain of a later position of the current match when that chain reaches further back. -/
def widerMatch (t : Tables) (src : ByteArray) (ip iLow iHigh : Int) (longest : Int)
    (maxAttempts : Nat) (patterns swap : Bool) : Tables × Match :=
  let ipIndex : Nat := ip.toNat + base
  let lowest : Nat := if base + maxDistance + 1 > ipIndex then base else ipIndex - maxDistance
  let pattern := read32 src ip
  let t := t.insertUpTo src ipIndex
  let rec go (fuel : Nat) (s : Search) : Search :=
    match fuel with
    | 0 => s
    | fuel + 1 =>
      if !(s.matchIndex ≥ lowest && s.attempts > 0) then s else
      match searchStep t src ip iLow iHigh ipIndex lowest pattern patterns swap s with
      | .next s => go fuel s
      | .done s => s
  let s := go (maxAttempts + 1)
    ⟨t.heads.getD (hash4 pattern) 0, maxAttempts, longest, 0, 0, 0, none, 0⟩
  (t, ⟨s.longest, s.offset, s.back⟩)

end TierCache.Lz4
