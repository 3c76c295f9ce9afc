import TierCache.Frame.Lz4Hc
import TierCache.Frame.Codec
/-!
Choosing the sequences of an LZ4 block at a compression level, and the block itself.
-/

namespace TierCache.Lz4

/-! ### Levels 1 and 2: two hash tables -/

/-- The 14-bit hash of four bytes. -/
def hashMid4 (v : Nat) : Nat := (v * 2654435761 % Nat.pow 2 32) >>> 18

/-- The 14-bit hash of the low seven bytes of eight. -/
def hashMid8 (v : Nat) : Nat := ((v <<< 8) % Nat.pow 2 64 * 58295818150454627 % Nat.pow 2 64) >>> 50

/-- The last index seen for each hash of four and of eight bytes. -/
structure MidTables where
  short : Array Nat
  long : Array Nat

namespace MidTables

def addShort (t : MidTables) (src : ByteArray) (p : Int) (idx : Nat) : MidTables :=
  { t with short := t.short.set! (hashMid4 (read32 src p)) idx }

def addLong (t : MidTables) (src : ByteArray) (p : Int) (idx : Nat) : MidTables :=
  { t with long := t.long.set! (hashMid8 (read64 src p)) idx }

end MidTables

/-- State of a compressor: what is written, where the unwritten literals start, where it is. -/
structure Cursor where
  out : ByteArray
  anchor : Nat
  ip : Nat

/-- Writes a match found at `ip` after extending it backwards over equal bytes, and enters
positions near its start and end into the tables. -/
def midEncode (src : ByteArray) (t : MidTables) (c : Cursor) (ipIndex : Nat) (len dist : Nat) :
    MidTables × Cursor :=
  let n := src.size
  let rec back (fuel : Nat) (ip len : Nat) : Nat × Nat :=
    match fuel with
    | 0 => (ip, len)
    | fuel + 1 =>
      if ip > c.anchor && ip > dist && rd src (ip - 1) == rd src (ip - dist - 1) then back fuel (ip - 1) (len + 1)
      else (ip, len)
  let (ip, len) := back c.ip c.ip len
  let t := (t.addLong src (ip + 1) (ipIndex + 1)).addLong src (ip + 2) (ipIndex + 2)
  let t := t.addShort src (ip + 1) (ipIndex + 1)
  let out := pushSequence c.out src c.anchor ip len dist
  let ip := ip + len
  let endIdx := ip + base
  let t :=
    if endIdx - 2 < (n - 8) + base then
      let t := if ip > 5 then t.addLong src (ip - 5) (endIdx - 5) else t
      let t := (t.addLong src (ip - 3) (endIdx - 3)).addLong src (ip - 2) (endIdx - 2)
      (t.addShort src (ip - 2) (endIdx - 2)).addShort src (ip - 1) (endIdx - 1)
    else t
  (t, ⟨out, ip, ip⟩)

/-- Levels 1 and 2: at each position, a match on eight bytes, else one on four bytes (or, when
one on eight bytes starts a byte later and is longer, that one); with no match, skip ahead
faster the longer the run of literals. -/
def midCompress (src : ByteArray) : ByteArray :=
  let n := src.size
  if n < 13 then pushLastLiterals ByteArray.empty src 0 n else
  let mflimit := n - 12
  let matchlimit : Int := n - 5
  let rec go (fuel : Nat) (t : MidTables) (c : Cursor) : ByteArray :=
    match fuel with
    | 0 => pushLastLiterals c.out src c.anchor n
    | fuel + 1 =>
      if c.ip > mflimit then pushLastLiterals c.out src c.anchor n else
      let ip := c.ip
      let ipIndex := ip + base
      let h8 := hashMid8 (read64 src ip)
      let pos8 := t.long.getD h8 0
      let t := { t with long := t.long.set! h8 ipIndex }
      let long : Option Nat :=
        if ipIndex - pos8 ≤ maxDistance && pos8 ≥ base then
          let len := commonLength src ip (pos8 - base) matchlimit
          if len ≥ minMatch then some len else none
        else none
      match long with
      | some len =>
        let (t, c) := midEncode src t c ipIndex len (ipIndex - pos8)
        go fuel t c
      | none =>
        let h4 := hashMid4 (read32 src ip)
        let pos4 := t.short.getD h4 0
        let t := { t with short := t.short.set! h4 ipIndex }
        let short : Option Nat :=
          if ipIndex - pos4 ≤ maxDistance && pos4 ≥ base then
            let len := commonLength src ip (pos4 - base) matchlimit
            if len ≥ minMatch then some len else none
          else none
        match short with
        | some len =>
          let dist := ipIndex - pos4
          let h8' := hashMid8 (read64 src (ip + 1))
          let pos8' := t.long.getD h8' 0
          let dist2 : Int := (ipIndex + 1 : Int) - pos8'
          let better : Option Nat :=
            if dist2 ≤ maxDistance && pos8' ≥ base && ip < mflimit then
              let len2 := commonLength src (ip + 1) (pos8' - base) matchlimit
              if len2 > len then some len2 else none
            else none
          match better with
          | some len2 =>
            let t := { t with long := t.long.set! h8' (ipIndex + 1) }
            let (t, c) := midEncode src t { c with ip := ip + 1 } ipIndex len2 dist2.toNat
            go fuel t c
          | none =>
            let (t, c) := midEncode src t c ipIndex len dist
            go fuel t c
        | none => go fuel t { c with ip := ip + 1 + ((ip - c.anchor) >>> 9) }
  go (n + 1) ⟨Array.replicate 16384 0, Array.replicate 16384 0⟩ ⟨ByteArray.empty, 0, 0⟩

/-- Writes a match at `ip` after the pending literals; reading goes on after the match. -/
def Cursor.emit (c : Cursor) (src : ByteArray) (ip : Int) (len : Int) (off : Nat) : Cursor :=
  let ipN := ip.toNat
  let lenN := len.toNat
  ⟨pushSequence c.out src c.anchor ipN lenN off, ipN + lenN, ipN + lenN⟩

/-! ### Levels 3 to 9: a hash chain, and matches weighed against the next ones -/

/-- Where the chain parser stands: at a fresh position, with one match in hand (and the match
first found at `start0`), or with two matches in hand. -/
inductive ChainPhase where
  | scan
  | second (ip : Int) (m1 : Match) (start0 : Int) (m0 : Match)
  | third (ip : Int) (m1 : Match) (start2 : Int) (m2 : Match)

/-- Matches shorter than this are stretched or shortened toward it when two overlap. -/
def optimalLength : Int := 18

/-- Levels 3 to 9: a match found at a position is kept only if no longer match starts inside
it; overlapping matches are trimmed so that each one that is written is worth its cost. -/
def chainCompress (src : ByteArray) (attempts : Nat) : ByteArray :=
  let n := src.size
  let patterns := attempts > 128
  if n < 13 then pushLastLiterals ByteArray.empty src 0 n else
  let mflimit : Int := n - 12
  let matchlimit : Int := n - 5
  let find (t : Tables) (ip iLow : Int) (longest : Int) : Tables × Match :=
    widerMatch t src ip iLow matchlimit longest attempts patterns false
  let rec go (fuel : Nat) (t : Tables) (c : Cursor) (phase : ChainPhase) : ByteArray :=
    match fuel with
    | 0 => pushLastLiterals c.out src c.anchor n
    | fuel + 1 =>
      match phase with
      | .scan =>
        let ip : Int := c.ip
        if ip > mflimit then pushLastLiterals c.out src c.anchor n else
        let (t, m1) := find t ip ip 3
        if m1.len < 4 then go fuel t { c with ip := c.ip + 1 } .scan
        else go fuel t c (.second ip m1 ip m1)
      | .second ip m1 start0 m0 =>
        let (t, m2, start2) :=
          if ip + m1.len ≤ mflimit then
            let s2 := ip + m1.len - 2
            let (t, m2) := find t s2 ip m1.len
            (t, m2, s2 + m2.back)
          else (t, Match.none, ip)
        if m2.len ≤ m1.len then go fuel t (c.emit src ip m1.len m1.off) .scan
        else
          let (ip, m1) := if start0 < ip && start2 < ip + m0.len then (start0, m0) else (ip, m1)
          if start2 - ip < 3 then go fuel t c (.second start2 m2 start0 m0)
          else go fuel t c (.third ip m1 start2 m2)
      | .third ip m1 start2 m2 =>
        -- shorten the first match so that the second keeps at least four bytes
        let (start2, m2) :=
          if start2 - ip < optimalLength then
            let newML := min m1.len optimalLength
            let newML := if ip + newML > start2 + m2.len - 4 then start2 - ip + m2.len - 4 else newML
            let correction := newML - (start2 - ip)
            if correction > 0 then (start2 + correction, { m2 with len := m2.len - correction })
            else (start2, m2)
          else (start2, m2)
        let (t, m3, start3) :=
          if start2 + m2.len ≤ mflimit then
            let s3 := start2 + m2.len - 3
            let (t, m3) := find t s3 start2 m2.len
            (t, m3, s3 + m3.back)
          else (t, Match.none, start2)
        if m3.len ≤ m2.len then
          let m1 := if start2 < ip + m1.len then { m1 with len := start2 - ip } else m1
          let c := c.emit src ip m1.len m1.off
          go fuel t (c.emit src start2 m2.len m2.off) .scan
        else if start3 < ip + m1.len + 3 then
          if start3 ≥ ip + m1.len then
            let (start2, m2) :=
              if start2 < ip + m1.len then
                let correction := ip + m1.len - start2
                let start2 := start2 + correction
                let m2 := { m2 with len := m2.len - correction }
                if m2.len < 4 then (start3, m3) else (start2, m2)
              else (start2, m2)
            go fuel t (c.emit src ip m1.len m1.off) (.second start3 m3 start2 m2)
          else go fuel t c (.third ip m1 start3 m3)
        else
          let (m1, start2, m2) :=
            if start2 < ip + m1.len then
              if start2 - ip < optimalLength then
                let len := min m1.len optimalLength
                let len := if ip + len > start2 + m2.len - 4 then start2 - ip + m2.len - 4 else len
                let correction := len - (start2 - ip)
                if correction > 0 then ({ m1 with len := len }, start2 + correction, { m2 with len := m2.len - correction })
                else ({ m1 with len := len }, start2, m2)
              else ({ m1 with len := start2 - ip }, start2, m2)
            else (m1, start2, m2)
          go fuel t (c.emit src ip m1.len m1.off) (.third start2 m2 start3 m3)
  go (4 * (n + 1) * (n + 1) + 64) Tables.empty ⟨ByteArray.empty, 0, 0⟩ .scan

/-! ### Levels 10 to 12: the cheapest way through a window -/

/-- Bytes that `n` literals cost, with their count's extension. -/
def literalsPrice (n : Nat) : Int := n + (if n ≥ 15 then 1 + (n - 15) / 255 else 0)

/-- Bytes that a sequence of `lits` literals and a match of `mlen` costs. -/
def sequencePrice (lits mlen : Nat) : Int :=
  3 + literalsPrice lits + (if mlen ≥ 19 then 1 + (mlen - 19) / 255 else 0)

/-- The cheapest known way to reach a position: by a literal (`mlen = 1`) or by a match. -/
structure Step where
  price : Int
  off : Nat
  mlen : Nat
  litlen : Nat
  deriving Inhabited

/-- The window of the optimal parser. -/
def windowSize : Nat := 4096

/-- The settings of an optimal level: candidates tried, length that is taken at once, and
whether every position is searched again. -/
structure OptimalLevel where
  searches : Nat
  enough : Nat
  full : Bool

/-- Fills positions `last + 1 … last + 3` with literals after the step at `last`. -/
def trailLiterals (opt : Array Step) (last : Nat) : Array Step :=
  let p := (opt.getD last default).price
  (List.range 3).foldl (fun opt k =>
    opt.set! (last + k + 1) ⟨p + literalsPrice (k + 1), 0, 1, k + 1⟩) opt

/-- Levels 10 to 12: from each position with a match, the cheapest sequence of literals and
matches across the window that the match opens is found and written. -/
def optimalCompress (src : ByteArray) (lv : OptimalLevel) : ByteArray :=
  let n := src.size
  if n < 13 then pushLastLiterals ByteArray.empty src 0 n else
  let mflimit : Int := n - 12
  let matchlimit : Int := n - 5
  let enough := min lv.enough (windowSize - 1)
  let longer (t : Tables) (ip : Int) (minLen : Int) : Tables × Match :=
    let (t, m) := widerMatch t src ip ip matchlimit minLen lv.searches true true
    if m.len ≤ minLen then (t, Match.none) else (t, m)
  -- walk the window forward, improving the prices of later positions
  let rec improve (fuel : Nat) (t : Tables) (opt : Array Step) (ip : Int) (cur last : Nat) :
      Tables × Array Step × Nat × Option (Nat × Nat × Nat) :=
    match fuel with
    | 0 => (t, opt, last, none)
    | fuel + 1 =>
      if cur ≥ last || ip + cur > mflimit then (t, opt, last, none) else
      let cell := fun (k : Nat) => opt.getD k default
      let skip :=
        if lv.full then (cell (cur + 1)).price ≤ (cell cur).price && (cell (cur + 4)).price < (cell cur).price + 3
        else (cell (cur + 1)).price ≤ (cell cur).price
      if skip then improve fuel t opt ip (cur + 1) last else
      let (t, m) := longer t (ip + cur) (if lv.full then 3 else (last : Int) - cur)
      if m.len == 0 then improve fuel t opt ip (cur + 1) last else
      let mlen := m.len.toNat
      if mlen > enough || mlen + cur ≥ windowSize then (t, opt, cur + 1, some (cur, mlen, m.off)) else
      -- literals after the step at `cur`
      let baseLit := (cell cur).litlen
      let opt := (List.range 3).foldl (fun opt k =>
        let lit := k + 1
        let price := (opt.getD cur default).price - literalsPrice baseLit + literalsPrice (baseLit + lit)
        if price < (opt.getD (cur + lit) default).price then opt.set! (cur + lit) ⟨price, 0, 1, baseLit + lit⟩
        else opt) opt
      -- the match at `cur`, at every length
      let (opt, last) := (List.range (mlen - 3)).foldl (fun (opt, last) k =>
        let ml := k + 4
        let pos := cur + ml
        let here := opt.getD cur default
        let (ll, price) :=
          if here.mlen == 1 then
            (here.litlen, (if cur > here.litlen then (opt.getD (cur - here.litlen) default).price else 0) +
              sequencePrice here.litlen ml)
          else (0, here.price + sequencePrice 0 ml)
        if pos > last + 3 || price ≤ (opt.getD pos default).price then
          let last := if ml == mlen && last < pos then pos else last
          (opt.set! pos ⟨price, m.off, ml, ll⟩, last)
        else (opt, last)) (opt, last)
      let opt := trailLiterals opt last
      improve fuel t opt ip (cur + 1) last
  let rec go (fuel : Nat) (t : Tables) (opt : Array Step) (c : Cursor) : ByteArray :=
    match fuel with
    | 0 => pushLastLiterals c.out src c.anchor n
    | fuel + 1 =>
      let ip : Int := c.ip
      if ip > mflimit then pushLastLiterals c.out src c.anchor n else
      let llen := c.ip - c.anchor
      let (t, first) := longer t ip 3
      if first.len == 0 then go fuel t opt { c with ip := c.ip + 1 } else
      let firstLen := first.len.toNat
      if firstLen > enough then go fuel t opt (c.emit src ip first.len first.off) else
      let opt := (List.range 4).foldl (fun opt r =>
        opt.set! r ⟨literalsPrice (llen + r), 0, 1, llen + r⟩) opt
      let opt := (List.range (firstLen - 3)).foldl (fun opt k =>
        opt.set! (k + 4) ⟨sequencePrice llen (k + 4), first.off, k + 4, llen⟩) opt
      let opt := trailLiterals opt firstLen
      let (t, opt, last, immediate) := improve (windowSize + 8) t opt ip 1 firstLen
      let (cur, bestLen, bestOff) := match immediate with
        | some triple => triple
        | none =>
          let s := opt.getD last default
          (last - s.mlen, s.mlen, s.off)
      -- walk back from the end, turning the best predecessors into a forward path
      let rec back (fuel : Nat) (opt : Array Step) (pos len off : Nat) : Array Step :=
        match fuel with
        | 0 => opt
        | fuel + 1 =>
          let s := opt.getD pos default
          let opt := opt.set! pos { s with mlen := len, off := off }
          if s.mlen > pos then opt else back fuel opt (pos - s.mlen) s.mlen s.off
      let opt := back (windowSize + 8) opt cur bestLen bestOff
      -- write the path
      let rec emitPath (fuel : Nat) (c : Cursor) (r : Nat) : Cursor :=
        match fuel with
        | 0 => c
        | fuel + 1 =>
          if r ≥ last then c else
          let s := opt.getD r default
          if s.mlen == 1 then emitPath fuel { c with ip := c.ip + 1 } (r + 1)
          else emitPath fuel (c.emit src c.ip s.mlen s.off) (r + s.mlen)
      go fuel t opt (emitPath (windowSize + 8) c 0)
  go (n + 1) Tables.empty (Array.replicate (windowSize + 8) default) ⟨ByteArray.empty, 0, 0⟩

/-- The settings of each level from 10 on. -/
def optimalLevel (level : Nat) : OptimalLevel :=
  if level ≤ 10 then ⟨96, 64, false⟩
  else if level == 11 then ⟨512, 128, false⟩
  else ⟨16384, windowSize, true⟩

/-- An LZ4 block of `src` at a compression level: below 1 counts as 9, above 12 as 12. -/
def compressHc (src : ByteArray) (level : Int) : ByteArray :=
  let level : Nat := if level < 1 then 9 else min level.toNat 12
  if level ≤ 2 then midCompress src
  else if level ≤ 9 then chainCompress src (Nat.pow 2 (level - 1))
  else optimalCompress src (optimalLevel level)

end TierCache.Lz4

namespace TierCache

/-- The LZ4 library's block functions as computed here: the compressor of the levels above and the
reference decoder. The driver's caches run with these. -/
def BlockCodec.lz4 : BlockCodec := ⟨Lz4.compressHc, Lz4.decodeBlock⟩

end TierCache
