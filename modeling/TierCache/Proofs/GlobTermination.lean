import Mathlib
import TierCache.Glob

/-!
# Matching ends

The anchor of the last `*` never moves back and moves on at every back-up, so the rank of a cursor
falls at every round (`Cursor.rank_advance`).

Main statement: `matching_loop_ends`.
-/

set_option autoImplicit false

namespace TierCache

namespace GlobToken

/-- A class scan that finds its closing bracket has read at least that bracket. -/
theorem classItems_rest_lt {cs rest : List Char} {items : List ClassItem}
    (h : classItems cs = some (items, rest)) : rest.length < cs.length := by
  fun_induction classItems cs generalizing items with
  | case1 => cases h
  | case2 rest' =>
    cases h
    simp
  | _ =>
    rename_i ih
    obtain ⟨⟨a, r⟩, h1, h2⟩ := Option.map_eq_some_iff.1 h
    cases h2
    have := ih h1
    simp at this ⊢
    omega

/-- Reading a pattern gives at most one token per character. -/
theorem tokenize_length_le (cs : List Char) : (tokenize cs).length ≤ cs.length := by
  fun_induction tokenize cs <;> simp_all <;> omega

end GlobToken

namespace Glob

/-- Where a walk stands: the next token, the next character, and the last `*` seen, anchored at
or before the next character. -/
structure Cursor where
  pi : Nat
  ti : Nat
  star : StarMark
  anchor_le : star.anchor ≤ ti

namespace Cursor

variable (toks : Array GlobToken) (text : Array Char)

theorem anchor_none_le_zero : StarMark.anchor none ≤ 0 := Nat.le_refl 0

/-- Both at the start, with no `*` seen. -/
def start : Cursor := ⟨0, 0, none, anchor_none_le_zero⟩

/-- After a mismatch: the last `*` takes one more character and the walk resumes right after it;
with no `*` seen, the text does not match. -/
def retry (c : Cursor) : Bool ⊕ Cursor :=
  match c.star with
  | some (after, k) => .inr ⟨after, k + 1, some (after, k + 1), Nat.le_refl _⟩
  | none => .inl false

/-- One round of the walk: the answer, when the round ends the walk, or where the next round
starts. -/
def advance (c : Cursor) : Bool ⊕ Cursor :=
  if hti : c.ti < text.size then
    if hpi : c.pi < toks.size then
      match toks[c.pi] with
      | .anyRun => .inr ⟨c.pi + 1, c.ti, some (c.pi + 1, c.ti), Nat.le_refl _⟩
      | tok =>
        if tok.accepts text[c.ti] then .inr ⟨c.pi + 1, c.ti + 1, c.star, Nat.le_succ_of_le c.anchor_le⟩
        else c.retry
    else c.retry
  else .inl ((toks.extract c.pi toks.size).all (· == .anyRun))

/-- The walk from a cursor. -/
def walk (c : Cursor) : Bool := Glob.walk toks text c.pi c.ti c.star c.anchor_le

/-- The walk run round by round, for at most `fuel` rounds: its answer, or `none` while it has not
ended. -/
def run : Nat → Cursor → Option Bool
  | 0, _ => none
  | n + 1, c => (c.advance toks text).elim some (run n)

/-- A bound on the rounds left: moving the anchor of the last `*` on pays for a fresh pass over
tokens and text. -/
def rank (c : Cursor) : Nat :=
  (text.size + 1 - c.star.anchor) * (toks.size + text.size + 3) +
    (toks.size + text.size + 2 - c.pi - c.ti)

/-- The walk is its first round followed by the walk from where that round leaves it. -/
theorem walk_eq (c : Cursor) :
    c.walk toks text = (c.advance toks text).elim id (·.walk toks text) := by
  obtain ⟨pi, ti, star, h⟩ := c
  unfold advance
  show Glob.walk toks text pi ti star h = _
  rw [Glob.walk.eq_def]
  dsimp only
  by_cases hti : ti < text.size
  · by_cases hpi : pi < toks.size
    · simp only [hti, hpi, dite_true]
      cases hk : toks[pi] with
      | anyRun => rfl
      | _ =>
        dsimp only
        split <;> (try rfl)
        cases star <;> rfl
    · simp only [hti, hpi, dite_true, dite_false]
      cases star <;> rfl
  · simp only [hti, dite_false]
    rfl

-- The rank is lexicographic: the anchor's distance to the end of the text first, then what is
-- left of tokens and text, which stays below the weight of one step of the anchor.
theorem lex_lt {A A' B B' W : Nat} (h : A' < A ∧ B' < W ∨ A' ≤ A ∧ B' < B) :
    A' * W + B' < A * W + B := by
  rcases h with ⟨hA, hB⟩ | ⟨hA, hB⟩
  · have hmul : (A' + 1) * W ≤ A * W := Nat.mul_le_mul_right W hA
    rw [Nat.succ_mul] at hmul
    omega
  · have hmul : A' * W ≤ A * W := Nat.mul_le_mul_right W hA
    omega

variable {toks text}

/-- Backing up moves the anchor on by one, within the text. -/
theorem rank_retry {c c' : Cursor} (hti : c.ti < text.size) (h : c.retry = .inr c') :
    c'.rank toks text < c.rank toks text := by
  obtain ⟨pi, ti, star, hle⟩ := c
  unfold retry at h
  split at h
  · next after k hs =>
    cases h
    dsimp only at hs hti
    subst hs
    simp only [StarMark.anchor_some] at hle
    unfold rank
    apply lex_lt
    simp only [StarMark.anchor_some]
    omega
  · cases h

/-- Every round that does not end the walk lowers its rank. -/
theorem rank_advance {c c' : Cursor} (h : c.advance toks text = .inr c') :
    c'.rank toks text < c.rank toks text := by
  have hle := c.anchor_le
  unfold advance at h
  split at h
  · next hti =>
    split at h
    · split at h
      · -- a `*` is anchored at the next character, no earlier than the last one
        cases h
        unfold rank
        apply lex_lt
        simp only [StarMark.anchor_some]
        omega
      · split at h
        · cases h
          unfold rank
          apply lex_lt
          dsimp only
          omega
        · exact rank_retry hti h
    · exact rank_retry hti h
  · cases h

/-- Given more rounds than its rank, the walk ends with its answer. -/
theorem run_of_rank_lt {n : Nat} {c : Cursor} (h : c.rank toks text < n) :
    c.run toks text n = some (c.walk toks text) := by
  induction n generalizing c with
  | zero => omega
  | succ n ih =>
    rw [run, walk_eq]
    cases hc : c.advance toks text with
    | inl b => rfl
    | inr c' =>
      have hlt := rank_advance hc
      exact ih (by omega)

/-- No round of the walk is followed by rounds for ever. -/
theorem wellFounded_advance :
    WellFounded fun c' c : Cursor => c.advance toks text = .inr c' :=
  Subrelation.wf rank_advance (measure (rank toks text)).wf

end Cursor

/-- Matching a text against a pattern ends, whatever the pattern and the text. Each class scan stops
once it has read its closing bracket, so the pattern gives at most one token per character. No
run of rounds of the walk goes on for ever, although backing up to the last `*` moves both
positions back, and from the start the walk gives the matcher's answer within
`(|text| + 2) · (|pattern| + |text| + 3)` rounds. -/
theorem matching_loop_ends (pattern text : String) :
    (∀ cs items rest, GlobToken.classItems cs = some (items, rest) → rest.length < cs.length) ∧
    (ofString pattern).toks.size ≤ pattern.length ∧
    WellFounded (fun c' c : Cursor => c.advance (ofString pattern).toks text.toList.toArray = .inr c') ∧
    Cursor.start.run (ofString pattern).toks text.toList.toArray
      ((text.length + 2) * (pattern.length + text.length + 3)) = some (globMatch pattern text) := by
  have htoks : (ofString pattern).toks.size ≤ pattern.length := by
    simpa [ofString, String.length_toList] using GlobToken.tokenize_length_le pattern.toList
  refine ⟨fun _ _ _ => GlobToken.classItems_rest_lt, htoks, Cursor.wellFounded_advance,
    Cursor.run_of_rank_lt ?_⟩
  -- the start's rank is below the bound once tokens are counted by characters
  have hsize : text.toList.toArray.size = text.length := by simp [String.length_toList]
  simp only [Cursor.rank, Cursor.start, StarMark.anchor, hsize, Nat.sub_zero]
  have hmul : (text.length + 1) * ((ofString pattern).toks.size + text.length + 3) ≤
      (text.length + 1) * (pattern.length + text.length + 3) :=
    Nat.mul_le_mul_left _ (by omega)
  rw [Nat.succ_mul (text.length + 1)]
  omega

end Glob

end TierCache
