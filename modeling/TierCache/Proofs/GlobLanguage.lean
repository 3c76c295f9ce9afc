import TierCache.Glob
import Mathlib.Computability.Language

/-!
# The language of a glob pattern

Main statement: the matcher decides the language of the pattern's tokens
(`globMatch_iff_mem_lang`). Completeness rests on every token but `*` taking one character.
-/

namespace TierCache

namespace GlobToken

-- The texts a token stands for.
def lang : GlobToken → Language Char
  | anyRun => ⊤
  | tok => {cs | ∃ c, cs = [c] ∧ tok.accepts c}

-- The texts a list of tokens stands for: its tokens' languages, concatenated.
def listLang (toks : List GlobToken) : Language Char := (toks.map lang).prod

theorem mem_lang_anyRun (cs : List Char) : cs ∈ anyRun.lang :=
  trivial

theorem mem_lang_of_ne {tok : GlobToken} (h : tok ≠ anyRun) {cs : List Char} :
    cs ∈ tok.lang ↔ ∃ c, cs = [c] ∧ tok.accepts c := by
  cases tok with
  | anyRun => exact absurd rfl h
  | _ => rfl

@[simp] theorem listLang_nil : listLang [] = 1 := rfl

theorem listLang_cons (tok : GlobToken) (toks : List GlobToken) :
    listLang (tok :: toks) = tok.lang * listLang toks :=
  List.prod_cons

theorem nil_mem_listLang {toks : List GlobToken} : [] ∈ listLang toks ↔ ∀ t ∈ toks, t = anyRun := by
  induction toks with
  | nil => simp
  | cons tok toks ih =>
    rw [listLang_cons, Language.mem_mul]
    simp only [List.append_eq_nil_iff, List.mem_cons, forall_eq_or_imp, ← ih]
    constructor
    · rintro ⟨a, ha, b, hb, rfl, rfl⟩
      refine ⟨?_, hb⟩
      by_contra hne
      obtain ⟨c, hc, -⟩ := (mem_lang_of_ne hne).1 ha
      exact List.cons_ne_nil c [] hc.symm
    · rintro ⟨rfl, hb⟩
      exact ⟨[], mem_lang_anyRun [], [], hb, rfl, rfl⟩

theorem mem_listLang_cons_of_ne {tok : GlobToken} (h : tok ≠ anyRun) {toks : List GlobToken}
    {cs : List Char} :
    cs ∈ listLang (tok :: toks) ↔ ∃ c rest, cs = c :: rest ∧ tok.accepts c ∧ rest ∈ listLang toks := by
  rw [listLang_cons, Language.mem_mul]
  constructor
  · rintro ⟨a, ha, b, hb, rfl⟩
    obtain ⟨c, rfl, hc⟩ := (mem_lang_of_ne h).1 ha
    exact ⟨c, b, rfl, hc, hb⟩
  · rintro ⟨c, rest, rfl, hc, hr⟩
    exact ⟨[c], (mem_lang_of_ne h).2 ⟨c, rfl, hc⟩, rest, hr, rfl⟩

theorem mem_listLang_anyRun {toks : List GlobToken} {cs : List Char} :
    cs ∈ listLang (anyRun :: toks) ↔ ∃ n, cs.drop n ∈ listLang toks := by
  rw [listLang_cons, Language.mem_mul]
  constructor
  · rintro ⟨a, -, b, hb, rfl⟩
    exact ⟨a.length, by simpa using hb⟩
  · rintro ⟨n, hn⟩
    exact ⟨cs.take n, mem_lang_anyRun _, cs.drop n, hn, List.take_append_drop n cs⟩

end GlobToken

namespace Glob

variable {toks : Array GlobToken} {text : Array Char} {pi ti : Nat} {star : StarMark}
  {hstar : star.anchor ≤ ti}

theorem all_anyRun_extract_iff :
    (toks.extract pi toks.size).all (· == .anyRun) ↔ ∀ t ∈ toks.toList.drop pi, t = .anyRun := by
  rw [← Array.all_toList, Array.toList_extract, List.extract, List.take_of_length_le (by simp)]
  simp

-- The text from index `ti` on lies in the language of the tokens from index `pi` on.
def MatchesFrom (toks : Array GlobToken) (text : Array Char) (pi ti : Nat) : Prop :=
  text.toList.drop ti ∈ GlobToken.listLang (toks.toList.drop pi)

theorem matchesFrom_anyRun (hpi : pi < toks.size) (h : toks[pi] = .anyRun) :
    MatchesFrom toks text pi ti ↔ ∃ j, ti ≤ j ∧ MatchesFrom toks text (pi + 1) j := by
  rw [MatchesFrom, List.drop_eq_getElem_cons (by simpa using hpi), Array.getElem_toList, h,
    GlobToken.mem_listLang_anyRun]
  constructor
  · rintro ⟨n, hn⟩
    exact ⟨ti + n, by omega, by simpa [MatchesFrom, List.drop_drop, Nat.add_comm] using hn⟩
  · rintro ⟨j, hj, hm⟩
    refine ⟨j - ti, ?_⟩
    rwa [List.drop_drop, Nat.add_sub_cancel' hj]

theorem matchesFrom_single (hpi : pi < toks.size) (h : toks[pi] ≠ .anyRun) :
    MatchesFrom toks text pi ti ↔
      ∃ hti : ti < text.size, toks[pi].accepts text[ti] ∧ MatchesFrom toks text (pi + 1) (ti + 1) := by
  rw [MatchesFrom, List.drop_eq_getElem_cons (by simpa using hpi), Array.getElem_toList,
    GlobToken.mem_listLang_cons_of_ne h]
  constructor
  · rintro ⟨c, rest, hcs, hc, hr⟩
    have hti : ti < text.size := by
      by_contra hle
      have hnil : text.toList.drop ti = [] := List.drop_eq_nil_of_le (by simp; omega)
      simp [hnil] at hcs
    rw [List.drop_eq_getElem_cons (by simpa using hti)] at hcs
    obtain ⟨rfl, rfl⟩ := List.cons.inj hcs
    exact ⟨hti, by simpa using hc, hr⟩
  · rintro ⟨hti, hc, hr⟩
    exact ⟨text[ti], _, List.drop_eq_getElem_cons (by simpa using hti), hc, hr⟩

theorem matchesFrom_past (hpi : ¬pi < toks.size) :
    MatchesFrom toks text pi ti ↔ text.size ≤ ti := by
  rw [MatchesFrom, List.drop_eq_nil_of_le (by simpa using not_lt.1 hpi)]
  simp [Language.mem_one]

theorem matchesFrom_of_size_le (hti : text.size ≤ ti) :
    MatchesFrom toks text pi ti ↔ ∀ t ∈ toks.toList.drop pi, t = .anyRun := by
  have hnil : text.toList.drop ti = [] := List.drop_eq_nil_of_le (by simpa using hti)
  rw [MatchesFrom, hnil, GlobToken.nil_mem_listLang]

/-! ### Soundness -/

-- What the walk gains by backing up to its last `*`: a reach of that `*` beyond its anchor.
theorem reach_of_backtrack {after k : Nat}
    (h : MatchesFrom toks text after (k + 1) ∨ ∃ a j, some (after, k + 1) = some (a, j) ∧
      ∃ j', j < j' ∧ MatchesFrom toks text a j') :
    ∃ j, k < j ∧ MatchesFrom toks text after j := by
  rcases h with hm | ⟨a, j, hs, j', hj, hm⟩
  · exact ⟨k + 1, by omega, hm⟩
  · obtain ⟨rfl, rfl⟩ := Prod.mk.inj (Option.some.inj hs)
    exact ⟨j', by omega, hm⟩

-- Whatever the walk accepts lies in the language: the rest of the text from where the walk
-- stands, or else a reach of the last `*` beyond its anchor.
theorem walk_sound (h : walk toks text pi ti star hstar = true) :
    MatchesFrom toks text pi ti ∨
      ∃ after k, star = some (after, k) ∧ ∃ j, k < j ∧ MatchesFrom toks text after j := by
  fun_induction walk toks text pi ti star hstar with
  | case1 pi ti star hstar hti hpi hrun ih =>
    -- the `*` at `pi` takes whatever its own reach was
    refine .inl ((matchesFrom_anyRun hpi hrun).2 ?_)
    rcases ih h with hm | ⟨a, k, hs, j, hj, hm⟩
    · exact ⟨ti, le_rfl, hm⟩
    · obtain ⟨rfl, rfl⟩ := Prod.mk.inj (Option.some.inj hs)
      exact ⟨j, hj.le, hm⟩
  | case2 pi ti star hstar hti hpi hne ha ih =>
    exact (ih h).imp_left fun hm => (matchesFrom_single hpi hne).2 ⟨hti, ha, hm⟩
  | case3 pi ti hti hpi after k hstar _ hne ha ih =>
    exact .inr ⟨after, k, rfl, reach_of_backtrack (ih h)⟩
  | case4 pi ti hti hpi hstar _ hne ha =>
    cases h
  | case5 pi ti hti hpi after k hstar _ ih =>
    exact .inr ⟨after, k, rfl, reach_of_backtrack (ih h)⟩
  | case6 pi ti hti hpi hstar _ =>
    cases h
  | case7 pi ti star hstar hti =>
    rw [all_anyRun_extract_iff] at h
    exact .inl ((matchesFrom_of_size_le (not_lt.1 hti)).2 h)

/-! ### Completeness -/

-- What the walk can rely on, by its last `*`. With none, the rest of the text lies in the
-- language of the rest of the tokens. With one anchored at `k`, some reach of that `*` from `k` on
-- matches, and the tokens read since it carry any reach from `k` on to where the walk stands: they
-- take one character each, so they fix how far the `*` reaches.
def Promise (toks : Array GlobToken) (text : Array Char) (pi ti : Nat) : StarMark → Prop
  | none => MatchesFrom toks text pi ti
  | some (after, k) => k ≤ ti ∧ (∃ j, k ≤ j ∧ MatchesFrom toks text after j) ∧
      ∀ j, k ≤ j → MatchesFrom toks text after j → MatchesFrom toks text pi (j + (ti - k))

-- A promise gives a match of the tokens from `pi` at the walk's position or later.
theorem Promise.reaches (h : Promise toks text pi ti star) :
    ∃ j, ti ≤ j ∧ MatchesFrom toks text pi j := by
  match star, h with
  | none, h => exact ⟨ti, le_rfl, h⟩
  | some (after, k), ⟨hk, ⟨j, hj, hm⟩, carry⟩ => exact ⟨j + (ti - k), by omega, carry j hj hm⟩

-- When the tokens from `pi` cannot match at the walk's position, the last `*` must reach
-- further than its anchor, and the walk may back up to it.
theorem Promise.backtrack {after k : Nat} (h : Promise toks text pi ti (some (after, k)))
    (hmiss : ¬MatchesFrom toks text pi ti) : Promise toks text after (k + 1) (some (after, k + 1)) := by
  obtain ⟨hk, ⟨j, hj, hm⟩, carry⟩ := h
  have hjk : k + 1 ≤ j := by
    by_contra hjk
    have hjeq : j = k := by omega
    rw [hjeq] at hm
    exact hmiss (by simpa [Nat.add_sub_cancel' hk] using carry k le_rfl hm)
  exact ⟨le_rfl, ⟨j, hjk, hm⟩, fun j _ hm => by simpa using hm⟩

-- The walk accepts every text its promise covers.
theorem walk_complete (h : Promise toks text pi ti star) : walk toks text pi ti star hstar = true := by
  fun_induction walk toks text pi ti star hstar with
  | case1 pi ti star hstar hti hpi hrun ih =>
    obtain ⟨j, hj, hm⟩ := h.reaches
    obtain ⟨j', hj', hm'⟩ := (matchesFrom_anyRun hpi hrun).1 hm
    exact ih ⟨le_rfl, ⟨j', by omega, hm'⟩, fun j _ hm => by simpa using hm⟩
  | case2 pi ti star hstar hti hpi hne ha ih =>
    have step : ∀ {j}, MatchesFrom toks text pi j → MatchesFrom toks text (pi + 1) (j + 1) :=
      fun hm => ((matchesFrom_single hpi hne).1 hm).2.2
    match star, h with
    | none, h => exact ih (step h)
    | some (after, k), ⟨hk, hreach, carry⟩ =>
      exact ih ⟨by omega, hreach, fun j hj hm => by
        simpa [Nat.sub_add_comm hk, Nat.add_assoc] using step (carry j hj hm)⟩
  | case3 pi ti hti hpi after k hstar _ hne ha ih =>
    exact ih (h.backtrack fun hm => ha ((matchesFrom_single hpi hne).1 hm).2.1)
  | case4 pi ti hti hpi hstar _ hne ha =>
    exact absurd ((matchesFrom_single hpi hne).1 h).2.1 ha
  | case5 pi ti hti hpi after k hstar _ ih =>
    exact ih (h.backtrack fun hm => absurd ((matchesFrom_past hpi).1 hm) (not_le.2 hti))
  | case6 pi ti hti hpi hstar _ =>
    exact absurd ((matchesFrom_past hpi).1 h) (not_le.2 hti)
  | case7 pi ti star hstar hti =>
    rw [all_anyRun_extract_iff]
    obtain ⟨j, hj, hm⟩ := h.reaches
    exact (matchesFrom_of_size_le (by omega)).1 hm

end Glob

-- A text matches a glob pattern exactly when it lies in the language of the pattern's tokens:
-- it splits into consecutive pieces, one per token, each in its token's language.
theorem globMatch_iff_mem_lang (pattern text : String) :
    globMatch pattern text = true ↔
      text.toList ∈ GlobToken.listLang (GlobToken.tokenize pattern.toList) := by
  have hfrom : Glob.MatchesFrom (Glob.ofString pattern).toks text.toList.toArray 0 0 ↔
      text.toList ∈ GlobToken.listLang (GlobToken.tokenize pattern.toList) := by
    simp [Glob.MatchesFrom, Glob.ofString]
  rw [← hfrom]
  constructor
  · intro h
    simpa using Glob.walk_sound h
  · exact fun h => Glob.walk_complete h

end TierCache
