/-!
# Jaro similarity

The Jaro similarity of two texts is a number between 0 and 1. Two characters match when they
are equal and no further apart than half the longer text's length, less one; each character of
the first text is matched to the first unmatched equal character of the second within that
window. With `m` matches, of which `t` pairs are out of order (half the matched characters that
differ when both texts' matched characters are read in order), the similarity is
`(m / |a| + m / |b| + (m - t) / m) / 3`, computed in double precision; it is 0 with no match,
and 1 for two empty texts.

A suggestion is the candidate most similar to what was written, among those more similar than
0.7; of equally similar candidates the last one offered wins.
-/

namespace TierCache

namespace Jaro

/-- The first position of `b`, within `[lo, hi)`, holding `c` and not yet taken. -/
def firstFree (b : Array Char) (taken : Array Bool) (c : Char) (lo hi : Nat) : Option Nat :=
  (List.range (min hi b.size)).find? fun j => lo ≤ j && b[j]? == some c && taken[j]? == some false

/-- Matches the characters of `a` against those of `b` within `window`: which positions of each
are matched. -/
def matchFlags (a b : Array Char) (window : Nat) : Array Bool × Array Bool :=
  (List.range a.size).foldl (fun (fa, fb) i =>
      let lo := i - window
      match a[i]?.bind fun c => firstFree b fb c lo (i + window + 1) with
      | some j => (fa.set! i true, fb.set! j true)
      | none => (fa, fb))
    (Array.replicate a.size false, Array.replicate b.size false)

/-- The matched characters of a text, in order. -/
def matched (s : Array Char) (flags : Array Bool) : List Char :=
  ((s.toList.zip flags.toList).filter (·.2)).map (·.1)

/-- The similarity of two texts. -/
def similarity (a b : String) : Float :=
  let a := a.toList.toArray
  let b := b.toList.toArray
  if a.size == 0 && b.size == 0 then 1.0
  else if a.size == 0 || b.size == 0 then 0.0
  else
    let window := max a.size b.size / 2 - 1
    let (fa, fb) := matchFlags a b window
    let ma := matched a fa
    let mb := matched b fb
    let m := ma.length
    let t := ((ma.zip mb).filter fun (x, y) => x != y).length / 2
    if m == 0 then 0.0
    else
      (Float.ofNat m / Float.ofNat a.size + Float.ofNat m / Float.ofNat b.size +
        Float.ofNat (m - t) / Float.ofNat m) / 3.0

/-- The least similarity, exclusive, for a candidate to be suggested. -/
def threshold : Float := Float.ofNat 7 / Float.ofNat 10

/-- The candidate most similar to `s` above the threshold; the last of equally similar ones. -/
def suggest (s : String) (candidates : List String) : Option String :=
  let best := candidates.foldl (fun (best : Option (Float × String)) c =>
      let x := similarity s c
      if x > threshold then
        match best with
        | some (y, _) => if x ≥ y then some (x, c) else best
        | none => some (x, c)
      else best) none
  best.map (·.2)

end Jaro

end TierCache
