/-!
Key patterns in the style of the distributed store's key scan: `*` stands for any run of
characters, `?` for one character, `[...]` for a class of characters, and a backslash makes the
next character literal. A pattern is first read into tokens, each of which (apart from `*`)
stands for exactly one character; matching then walks pattern and text once, backing up only to
the most recent `*`.
-/

namespace TierCache

/-- One member of a bracket class: a single character or an inclusive range. -/
inductive ClassItem where
  | single (c : Char)
  | range (lo hi : Char)
  deriving Repr, DecidableEq, Inhabited

namespace ClassItem

/-- A range written backwards (`[z-a]`) covers the same characters as the forward one. -/
def covers : ClassItem → Char → Bool
  | single c, ch => c == ch
  | range lo hi, ch => if lo ≤ hi then lo ≤ ch && ch ≤ hi else hi ≤ ch && ch ≤ lo

end ClassItem

/-- A token of a glob pattern. -/
inductive GlobToken where
  /-- `*`: any run of characters, the empty one included. -/
  | anyRun
  /-- `?`: exactly one character. -/
  | anyChar
  /-- One given character (plain, escaped, or a `[` that opens no closed class). -/
  | literal (c : Char)
  /-- `[...]`, or `[^...]` when `negated`. -/
  | charClass (negated : Bool) (items : List ClassItem)
  deriving Repr, DecidableEq, Inhabited

namespace GlobToken

/-- Whether a token that stands for one character accepts `ch`; `*` accepts nothing here. -/
def accepts : GlobToken → Char → Bool
  | anyRun, _ => false
  | anyChar, _ => true
  | literal c, ch => c == ch
  | charClass negated items, ch => items.any (·.covers ch) != negated

/-- The members of a class up to its closing `]`, and the text after that bracket; `none` when
no `]` closes the class. Inside a class a backslash escapes the next character, and `a-b` is a
range unless the `-` is followed by the closing bracket. -/
def classItems : List Char → Option (List ClassItem × List Char)
  | [] => none
  | ']' :: rest => some ([], rest)
  | '\\' :: c :: rest => (classItems rest).map fun (items, r) => (.single c :: items, r)
  | lo :: '-' :: hi :: rest =>
    if hi = ']' then (classItems ('-' :: hi :: rest)).map fun (items, r) => (.single lo :: items, r)
    else (classItems rest).map fun (items, r) => (.range lo hi :: items, r)
  | c :: rest => (classItems rest).map fun (items, r) => (.single c :: items, r)

/-- The class that opens right after a `[`, with an optional leading `^` for negation. -/
def bracket (cs : List Char) : Option (GlobToken × List Char) :=
  match cs with
  | '^' :: rest => (classItems rest).map fun (items, r) => (.charClass true items, r)
  | _ => (classItems cs).map fun (items, r) => (.charClass false items, r)

theorem classItems_rest_length {cs : List Char} :
    ∀ {p : List ClassItem × List Char}, classItems cs = some p → p.2.length < cs.length + 1 := by
  fun_induction classItems cs <;> intro p h
  · simp at h
  · simp only [Option.some.injEq] at h
    subst h
    simp only [List.length_cons]
    omega
  all_goals
    rename_i ih
    obtain ⟨⟨a, b⟩, h1, rfl⟩ := Option.map_eq_some_iff.1 h
    have := ih h1
    simp at this ⊢
    omega

theorem bracket_rest_length {cs : List Char} {p : GlobToken × List Char} (h : bracket cs = some p) :
    p.2.length < cs.length + 1 := by
  unfold bracket at h
  split at h
  · simp only [Option.map_eq_some_iff] at h
    obtain ⟨⟨i, r⟩, h1, rfl⟩ := h
    have := classItems_rest_length h1
    simp_all; omega
  · simp only [Option.map_eq_some_iff] at h
    obtain ⟨⟨i, r⟩, h1, rfl⟩ := h
    exact classItems_rest_length h1

/-- The tokens of a pattern. A `[` whose class is never closed is a literal `[`, and a backslash
at the very end stands for itself. -/
def tokenize : List Char → List GlobToken
  | [] => []
  | '*' :: rest => .anyRun :: tokenize rest
  | '?' :: rest => .anyChar :: tokenize rest
  | '\\' :: c :: rest => .literal c :: tokenize rest
  | '[' :: rest =>
    match h : bracket rest with
    | some (tok, r) =>
      have : r.length < rest.length + 1 := @bracket_rest_length rest (tok, r) h
      tok :: tokenize r
    | none => .literal '[' :: tokenize rest
  | c :: rest => .literal c :: tokenize rest
termination_by cs => cs.length

end GlobToken

/-- A glob pattern, kept both as written and as tokens. -/
structure Glob where
  source : String
  toks : Array GlobToken

namespace Glob

/-- Reads a pattern into its tokens. -/
def ofString (s : String) : Glob := ⟨s, (GlobToken.tokenize s.toList).toArray⟩

/-- Whether a pattern is more than a plain key: it holds one of `*`, `?`, `[` or a backslash. -/
def isPattern (s : String) : Bool :=
  s.any fun c => c == '*' || c == '?' || c == '[' || c == '\\'

/-- The last `*` seen, as the token index after it and the text index it is anchored at. -/
abbrev StarMark := Option (Nat × Nat)

/-- How far the last `*` has been anchored; it only moves forward. -/
def StarMark.anchor : StarMark → Nat
  | some (_, k) => k
  | none => 0

@[simp] theorem StarMark.anchor_some (after k : Nat) : StarMark.anchor (some (after, k)) = k := rfl

/-- Walks tokens and text together. On a mismatch the last `*` absorbs one more character and
matching resumes right after it; with no `*` seen, the match fails. At the end of the text only
`*` tokens may remain. -/
def walk (toks : Array GlobToken) (text : Array Char) (pi ti : Nat) (star : StarMark)
    (hstar : star.anchor ≤ ti) : Bool :=
  if hti : ti < text.size then
    if hpi : pi < toks.size then
      match toks[pi] with
      | .anyRun => walk toks text (pi + 1) ti (some (pi + 1, ti)) (by simp [StarMark.anchor])
      | tok =>
        if tok.accepts text[ti] then walk toks text (pi + 1) (ti + 1) star (by omega)
        else
          match hs : star with
          | some (after, k) =>
            walk toks text after (k + 1) (some (after, k + 1)) (by simp [StarMark.anchor])
          | none => false
    else
      match hs : star with
      | some (after, k) =>
        walk toks text after (k + 1) (some (after, k + 1)) (by simp [StarMark.anchor])
      | none => false
  else (toks.extract pi toks.size).all (· == .anyRun)
termination_by (text.size + 1 - star.anchor, toks.size + text.size + 2 - pi - ti)
decreasing_by
  all_goals
    simp only [Prod.lex_def, true_and] at *
    (try subst_vars)
    (try simp only [StarMark.anchor_some] at *)
    omega

/-- Whether the whole text is in the language of the pattern. -/
def accepts (g : Glob) (text : String) : Bool :=
  walk g.toks text.toList.toArray 0 0 none (by simp [StarMark.anchor])

end Glob

/-- Whether `text` matches the glob `pattern`, character by character. -/
def globMatch (pattern text : String) : Bool :=
  (Glob.ofString pattern).accepts text

end TierCache
