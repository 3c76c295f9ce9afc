import TierCache.Proofs.EligibilityGates
import TierCache.Proofs.DependencyOrder

/-!
# Dispatch in rule order

Rules are dispatched most urgent first (`Registry.ordered_precedes`), each in turn (`Dispatched`).

Main statement: `dispatch_follows_rule_order`.
-/

namespace TierCache

/-! ## The order of the rules -/

namespace Rule

/-- `a` comes strictly before `b`: more urgent, or as urgent with a smaller pattern. -/
def Precedes (a b : Rule) : Prop :=
  a.priority.rank < b.priority.rank ∨ a.priority.rank = b.priority.rank ∧ a.pattern < b.pattern

theorem before_iff {a b : Rule} :
    before a b = true ↔
      a.priority.rank < b.priority.rank ∨ a.priority.rank = b.priority.rank ∧ a.pattern ≤ b.pattern := by
  simp [before]

theorem before_trans (a b c : Rule) (hab : before a b = true) (hbc : before b c = true) :
    before a c = true := by
  rw [before_iff] at hab hbc ⊢
  rcases hab with hab | ⟨hab, hab'⟩ <;> rcases hbc with hbc | ⟨hbc, hbc'⟩
  · exact .inl (by omega)
  · exact .inl (by omega)
  · exact .inl (by omega)
  · exact .inr ⟨by omega, le_trans hab' hbc'⟩

theorem before_total (a b : Rule) : (before a b || before b a) = true := by
  rw [Bool.or_eq_true, before_iff, before_iff]
  rcases Nat.lt_trichotomy a.priority.rank b.priority.rank with h | h | h
  · exact .inl (.inl h)
  · rcases le_total a.pattern b.pattern with hp | hp
    · exact .inl (.inr ⟨h, hp⟩)
    · exact .inr (.inr ⟨h.symm, hp⟩)
  · exact .inr (.inl h)

end Rule

namespace Registry

variable {g g' : Registry} {r : Rule}

/-- With distinct patterns, the rules in order are the registered rules, each strictly before the
next: most urgent first, then by pattern. -/
theorem ordered_precedes (huniq : (g.rules.map Rule.pattern).Nodup) :
    g.ordered.Perm g.rules ∧ g.ordered.Pairwise Rule.Precedes := by
  have hperm := List.mergeSort_perm g.rules Rule.before
  have hsorted := List.pairwise_mergeSort Rule.before_trans Rule.before_total g.rules
  have hdistinct : g.ordered.Pairwise fun a b => a.pattern ≠ b.pattern :=
    List.pairwise_map.1 ((hperm.map Rule.pattern).nodup_iff.2 huniq)
  refine ⟨hperm, (hsorted.and hdistinct).imp fun ⟨hab, hne⟩ => ?_⟩
  rcases Rule.before_iff.1 hab with h | ⟨h, hle⟩
  · exact .inl h
  · exact .inr ⟨h, lt_of_le_of_ne hle hne⟩

/-- A rule is registered only under a new pattern that is not among its own dependencies; the
rules are then the old ones and the new one. -/
theorem register_ok (h : g.register r = .ok g') :
    r.pattern ∉ g.rules.map Rule.pattern ∧ r.pattern ∉ r.dependencies ∧ g'.rules.Perm (r :: g.rules) := by
  unfold register at h
  split at h
  · cases h
  · next hnew =>
    split at h
    · cases h
    · next hself =>
      cases h
      refine ⟨fun hmem => hnew ?_, fun hmem => hself (List.contains_iff_mem.2 hmem), ?_⟩
      · obtain ⟨x, hx, hxp⟩ := List.mem_map.1 hmem
        exact List.any_eq_true.2 ⟨x, hx, by simp [hxp]⟩
      · -- the new rule goes in where the patterns stop being smaller than its own
        show List.Perm ((g.rules.span fun x => decide (x.pattern < r.pattern)).1 ++
          r :: (g.rules.span fun x => decide (x.pattern < r.pattern)).2) (r :: g.rules)
        rw [List.span_eq_takeWhile_dropWhile]
        exact List.perm_middle.trans (.cons _ (by rw [List.takeWhile_append_dropWhile]))

/-- A refused registration is of a pattern already registered, or else of a rule depending on
itself, and its message names the pattern and the reason. -/
theorem register_error {e : CacheError} (h : g.register r = .error e) :
    r.pattern ∈ g.rules.map Rule.pattern ∧
        e = .config ("warming rule '" ++ r.pattern ++ "' already registered") ∨
      r.pattern ∈ r.dependencies ∧ e = .config ("warming rule '" ++ r.pattern ++ "' depends on itself") := by
  unfold register at h
  split at h
  · next hdup =>
    cases h
    obtain ⟨x, hx, hxp⟩ := List.any_eq_true.1 hdup
    exact .inl ⟨List.mem_map.2 ⟨x, hx, by simpa using hxp⟩, rfl⟩
  · split at h
    · next hself =>
      cases h
      exact .inr ⟨List.contains_iff_mem.1 hself, rfl⟩
    · cases h

/-- A registration is refused exactly for a pattern already registered or a rule depending on
itself. -/
theorem register_refused_iff :
    (∃ e, g.register r = .error e) ↔ r.pattern ∈ g.rules.map Rule.pattern ∨ r.pattern ∈ r.dependencies := by
  constructor
  · rintro ⟨e, h⟩
    exact (register_error h).imp And.left And.left
  · intro hbad
    cases h : g.register r with
    | error e => exact ⟨e, rfl⟩
    | ok g' =>
      obtain ⟨hnew, hself, -⟩ := register_ok h
      exact hbad.elim (fun hmem => absurd hmem hnew) fun hmem => absurd hmem hself

theorem register_keeps_patterns_distinct (h : g.register r = .ok g')
    (huniq : (g.rules.map Rule.pattern).Nodup) : (g'.rules.map Rule.pattern).Nodup := by
  obtain ⟨hnew, -, hperm⟩ := register_ok h
  exact (hperm.map Rule.pattern).nodup_iff.2 (List.nodup_cons.2 ⟨hnew, huniq⟩)

end Registry

/-! ## One dispatch -/

namespace Warmer

/-- What a dispatch's checks read and move: the claimed patterns, the free permits and the rules
skipped busy. -/
def gate (w : Warmer) : List String × Nat × Nat := (w.inFlight, w.permits, w.counters.skippedBusy)

/-- A pattern claimed. -/
def hold (w : Warmer) (p : String) : Warmer := { w with inFlight := p :: w.inFlight }

/-- A rule turned away for want of a permit: counted as skipped busy, its claim given back. -/
def turnAway (w : Warmer) (p : String) : Warmer :=
  (w.count fun c => { c with skippedBusy := c.skippedBusy + 1 }).release p

/-- A permit taken: the next job numbered, running and not yet drained, and counted active. -/
def grant (w : Warmer) : Warmer :=
  { w with permits := w.permits - 1, nextJob := w.nextJob + 1, running := w.running ++ [w.nextJob],
           undrained := w.undrained ++ [w.nextJob],
           counters := { w.counters with active := w.counters.active + 1 } }

@[simp] theorem gate_hold (w : Warmer) (p : String) :
    (w.hold p).gate = (p :: w.inFlight, w.permits, w.counters.skippedBusy) := rfl

@[simp] theorem gate_release (w : Warmer) (p : String) :
    (w.release p).gate = (w.inFlight.filter (· != p), w.permits, w.counters.skippedBusy) := rfl

@[simp] theorem gate_turnAway (w : Warmer) (p : String) :
    (w.turnAway p).gate = (w.inFlight.filter (· != p), w.permits, w.counters.skippedBusy + 1) := rfl

@[simp] theorem gate_grant (w : Warmer) :
    w.grant.gate = (w.inFlight, w.permits - 1, w.counters.skippedBusy) := rfl

-- Giving back a claim just made leaves the claims as they were.
theorem filter_ne_cons {p : String} {I : List String} (hp : p ∉ I) : (p :: I).filter (· != p) = I := by
  rw [List.filter_cons_of_neg (by simp), List.filter_eq_self]
  intro x hx
  simp only [bne_iff_ne, ne_eq]
  rintro rfl
  exact hp hx

theorem claimed_iff_mem {w : Warmer} {p : String} {I : List String} {P S : Nat}
    (hgate : w.gate = (I, P, S)) : w.claimed p = true ↔ p ∈ I := by
  have hI : w.inFlight = I := congrArg Prod.fst hgate
  simp [claimed, hI]

theorem not_mem_of_unclaimed {w : Warmer} {p : String} {I : List String} {P S : Nat}
    (hgate : w.gate = (I, P, S)) (hfree : w.claimed p = false) : p ∉ I := fun hmem => by
  simp [(claimed_iff_mem hgate).2 hmem] at hfree

end Warmer

/-- What a dispatch found when it reached a rule. -/
inductive Verdict where
  | inFlight
  | ineligible (e : Eligibility)
  | busy
  | started

namespace Verdict

/-- Whether the rule was claimed and found eligible. -/
@[simp] def passed : Verdict → Bool
  | inFlight | ineligible _ => false
  | busy | started => true

@[simp] def isStarted : Verdict → Bool
  | inFlight | ineligible _ | busy => false
  | started => true

end Verdict

/-- One dispatch of `r` at `now` from `h`, amid others moving the state by `R`, with its verdict and
the host it leaves. The claim is made at once; the gates run amid the others from the claimed
state; for an eligible rule the permit is taken at once when the gates return, and the rule is
turned away when none is free or the scheduler has gone. -/
inductive Dispatched (R : Host → Host → Prop) (r : Rule) (now : Instant) :
    Host → Verdict → Host → Prop
  | inFlight {h} : (∀ w, h.warmer = some w → w.claimed r.pattern = true) →
      Dispatched R r now h .inFlight { h with requested := [] }
  | ineligible {h w h₁ e} : h.warmer = some w → w.claimed r.pattern = false →
      Host.stage.Amid R { h with warmer := some (w.hold r.pattern), requested := [] }
        (Act.eligibility r now) e h₁ → e ≠ .eligible →
      Dispatched R r now h (.ineligible e)
        { h₁ with warmer := h₁.warmer.map (·.release r.pattern), requested := [] }
  | busy {h w h₁ w₁} : h.warmer = some w → w.claimed r.pattern = false →
      Host.stage.Amid R { h with warmer := some (w.hold r.pattern), requested := [] }
        (Act.eligibility r now) .eligible h₁ → h₁.warmer = some w₁ → w₁.permits = 0 →
      Dispatched R r now h .busy { h₁ with warmer := some (w₁.turnAway r.pattern), requested := [] }
  | gone {h w h₁} : h.warmer = some w → w.claimed r.pattern = false →
      Host.stage.Amid R { h with warmer := some (w.hold r.pattern), requested := [] }
        (Act.eligibility r now) .eligible h₁ → h₁.warmer = none →
      Dispatched R r now h .busy { h₁ with requested := [] }
  | started {h w h₁ w₁} : h.warmer = some w → w.claimed r.pattern = false →
      Host.stage.Amid R { h with warmer := some (w.hold r.pattern), requested := [] }
        (Act.eligibility r now) .eligible h₁ → h₁.warmer = some w₁ → w₁.permits ≠ 0 →
      Dispatched R r now h .started { h₁ with warmer := some w₁.grant, requested := [] }

/-- The dispatches of rules in turn, each from where the last left the host. -/
inductive Swept (R : Host → Host → Prop) (now : Instant) : Host → List Rule → List Verdict → Host → Prop
  | nil {h} : Swept R now h [] [] h
  | cons {h r rs v vs h₁ h'} : Dispatched R r now h v h₁ → Swept R now h₁ rs vs h' →
      Swept R now h (r :: rs) (v :: vs) h'

/-- The patterns of the rules whose verdict satisfies `q`, in order. -/
def patternsWith (q : Verdict → Bool) (rs : List Rule) (vs : List Verdict) : List String :=
  ((rs.zip vs).filter fun x => q x.2).map (·.1.pattern)

@[simp] theorem patternsWith_nil (q : Verdict → Bool) (vs : List Verdict) :
    patternsWith q [] vs = [] := rfl

@[simp] theorem patternsWith_cons (q : Verdict → Bool) (r : Rule) (rs : List Rule) (v : Verdict)
    (vs : List Verdict) :
    patternsWith q (r :: rs) (v :: vs) =
      if q v then r.pattern :: patternsWith q rs vs else patternsWith q rs vs := by
  unfold patternsWith
  by_cases hq : q v <;> simp [hq]

theorem patternsWith_sublist (q : Verdict → Bool) (rs : List Rule) (vs : List Verdict) :
    List.Sublist (patternsWith q rs vs) (rs.map Rule.pattern) := by
  induction rs generalizing vs with
  | nil => exact List.nil_sublist _
  | cons r rs ih =>
    cases vs with
    | nil => exact List.nil_sublist _
    | cons v vs =>
      rw [patternsWith_cons, List.map_cons]
      split
      · exact (ih vs).cons_cons _
      · exact (ih vs).cons _

namespace Host

/-- A change that leaves a dispatch's checks alone: the scheduler stays, with the same claims, free
permits and busy count. -/
def KeepsGate (h h' : Host) : Prop := h'.warmer.map Warmer.gate = h.warmer.map Warmer.gate

theorem KeepsGate.refl (h : Host) : h.KeepsGate h := rfl

theorem KeepsGate.trans {h h₁ h₂ : Host} (h₀₁ : h.KeepsGate h₁) (h₁₂ : h₁.KeepsGate h₂) :
    h.KeepsGate h₂ :=
  Eq.trans h₁₂ h₀₁

end Host

namespace Act

open Stage

variable {R : Host → Host → Prop} {s s' : Host} {now : Instant}

/-- The gates leave the scheduler as it was. -/
theorem keeps_warmer_eligibility (r : Rule) (now : Instant) :
    Stays (fun h h' => h'.warmer = h.warmer) (eligibility r now) := by
  refine stays_eligibility (fun call => stays_callTier (fun h => ?_) (fun a h => ?_))
    (fun _ _ => rfl) (fun _ _ => rfl) r now
  · unfold startCall
    split <;> rfl
  · unfold endCall
    split <;> rfl

/-- Amid others that leave the checks alone, the gates leave them alone. -/
theorem eligibility_keepsGate (hR : ∀ {s s'}, R s s' → s.KeepsGate s') {r : Rule} {e : Eligibility}
    (h : Host.stage.Amid R s (eligibility r now) e s') : s.KeepsGate s' :=
  Amid.keeps Host.KeepsGate.refl (fun h₀₁ h₁₂ => h₀₁.trans h₁₂) hR (fun _ => by rfl)
    ((keeps_warmer_eligibility r now s).mono fun _ _ hw => by
      unfold Host.KeepsGate
      rw [hw]) h

theorem claim_run {p : String} {c : Bool} (h : Host.stage.Amid R s (claim p) c s') :
    (c = false ∧ (∀ w, s.warmer = some w → w.claimed p = true) ∧ s' = { s with requested := [] }) ∨
      ∃ w, s.warmer = some w ∧ w.claimed p = false ∧ c = true ∧
        s' = { s with warmer := some (w.hold p), requested := [] } := by
  obtain ⟨rfl, rfl⟩ := Amid.modifyGet h
  cases hw : s.warmer with
  | none => exact .inl ⟨rfl, (fun _ h => by cases h), by simp [hw]⟩
  | some w =>
    cases hc : w.claimed p with
    | true => exact .inl ⟨by simp [hc], (fun w' h => by cases h; exact hc), by simp [hw, hc]⟩
    | false => exact .inr ⟨w, rfl, hc, by simp [hc], by simp [hc, Warmer.hold]⟩

theorem takePermit_run {p : String} {o : Option Nat} (h : Host.stage.Amid R s (takePermit p) o s') :
    (s.warmer = none ∧ o = none ∧ s' = { s with requested := [] }) ∨
      (∃ w, s.warmer = some w ∧ w.permits = 0 ∧ o = none ∧
        s' = { s with warmer := some (w.turnAway p), requested := [] }) ∨
      ∃ w, s.warmer = some w ∧ w.permits ≠ 0 ∧ o = some w.nextJob ∧
        s' = { s with warmer := some w.grant, requested := [] } := by
  obtain ⟨rfl, rfl⟩ := Amid.modifyGet h
  cases hw : s.warmer with
  | none => exact .inl ⟨rfl, rfl, by simp [hw]⟩
  | some w =>
    by_cases hp : w.permits = 0
    · exact .inr (.inl ⟨w, rfl, hp, by simp [hp], by simp [hp, Warmer.turnAway]⟩)
    · exact .inr (.inr ⟨w, rfl, hp, by simp [hp], by simp [hp, Warmer.grant]⟩)

/-- A dispatch run to its end is one of `Dispatched`, and answers whether it started the rule. -/
theorem dispatch_run {r : Rule} {trigger : Option String} {b : Bool}
    (hrun : Host.stage.Amid R s (dispatch r now trigger) b s') :
    ∃ v, Dispatched R r now s v s' ∧ b = v.isStarted := by
  unfold dispatch at hrun
  obtain ⟨c, s₁, hclaim, hrest⟩ := Amid.of_bind hrun
  rcases claim_run hclaim with ⟨rfl, hheld, rfl⟩ | ⟨w, hw, hfree, rfl, rfl⟩
  · obtain ⟨rfl, rfl⟩ := Amid.done_iff.1 hrest
    exact ⟨.inFlight, .inFlight hheld, rfl⟩
  · obtain ⟨e, s₂, hgates, hrest⟩ := Amid.of_bind hrest
    split at hrest
    · -- eligible: the permit, taken when the gates return
      obtain ⟨o, s₃, hpermit, hrest⟩ := Amid.of_bind hrest
      rcases takePermit_run hpermit with ⟨hgone, rfl, rfl⟩ | ⟨w₁, hw₁, hzero, rfl, rfl⟩ |
          ⟨w₁, hw₁, hfree₁, rfl, rfl⟩
      · obtain ⟨rfl, rfl⟩ := Amid.done_iff.1 hrest
        exact ⟨.busy, .gone hw hfree hgates hgone, rfl⟩
      · obtain ⟨rfl, rfl⟩ := Amid.done_iff.1 hrest
        exact ⟨.busy, .busy hw hfree hgates hw₁ hzero, rfl⟩
      · -- the job asked for is handed over, and the host is left as the permit left it
        have hdone := Amid.modify_bind hrest
        obtain ⟨rfl, rfl⟩ := Amid.done_iff.1 hdone
        have hstarted : Dispatched R r now s .started
            { s₂ with warmer := some w₁.grant, requested := [] } :=
          .started hw hfree hgates hw₁ hfree₁
        exact ⟨.started, hstarted, rfl⟩
    · next hne =>
      have hdone := Amid.modify_bind hrest
      obtain ⟨rfl, rfl⟩ := Amid.done_iff.1 hdone
      exact ⟨.ineligible e, .ineligible hw hfree hgates hne, rfl⟩

/-- The rounds of a loop that dispatches each rule and appends its pattern when it started are a
sweep of the rules. -/
theorem Rounds.swept {body : Rule → List String → Act (ForInStep (List String))}
    (hbody : ∀ r acc s a s', Host.stage.Amid R s (body r acc) a s' →
      ∃ v, Dispatched R r now s v s' ∧ a = .yield (if v.isStarted then acc ++ [r.pattern] else acc))
    {rs : List Rule} {acc ds : List String} (h : Host.stage.Rounds R body s rs acc ds s') :
    ∃ vs, Swept R now s rs vs s' ∧ ds = acc ++ patternsWith Verdict.isStarted rs vs := by
  induction h with
  | nil => exact ⟨[], .nil, by simp⟩
  | @stop s r rs acc ds s' hround =>
    obtain ⟨v, -, hstep⟩ := hbody r acc s _ s' hround
    cases hstep
  | @next s r rs acc acc₁ ds s₁ s' hround _ ih =>
    obtain ⟨v, hv, hstep⟩ := hbody r acc s _ s₁ hround
    cases hstep
    obtain ⟨vs, hswept, rfl⟩ := ih
    refine ⟨v :: vs, .cons hv hswept, ?_⟩
    rw [patternsWith_cons]
    split <;> simp [*]

/-- A dispatch of rules in turn, run to its end, is a sweep, answering the patterns started. -/
theorem dispatchAll_run {rs : List Rule} {trigger : Option String} {ds : List String}
    (hrun : Host.stage.Amid R s (dispatchAll rs now trigger) ds s') :
    ∃ vs, Swept R now s rs vs s' ∧ ds = patternsWith Verdict.isStarted rs vs := by
  unfold dispatchAll at hrun
  obtain ⟨acc, s₁, hloop, hdone⟩ := Amid.of_bind hrun
  obtain ⟨rfl, rfl⟩ := Amid.done_iff.1 hdone
  obtain ⟨vs, hswept, rfl⟩ := Rounds.swept (fun r acc s a s' hround => by
    obtain ⟨b, s₂, hdispatch, hstep⟩ := Amid.of_bind hround
    obtain ⟨v, hv, rfl⟩ := dispatch_run hdispatch
    refine ⟨v, ?_⟩
    split at hstep
    · next hs =>
      obtain ⟨rfl, rfl⟩ := Amid.done_iff.1 hstep
      exact ⟨hv, by rw [if_pos hs]⟩
    · next hs =>
      obtain ⟨rfl, rfl⟩ := Amid.done_iff.1 hstep
      exact ⟨hv, by rw [if_neg hs]⟩) (Amid.of_forIn hloop)
  exact ⟨vs, hswept, by simp⟩

/-! ## A sweep amid others that leave the checks alone -/

/-- Amid others that leave the checks alone, the gates of a claimed rule return with the claim, the
free permits and the busy count as the claim left them. -/
theorem gates_keep_gate (hR : ∀ {s s'}, R s s' → s.KeepsGate s') {w : Warmer} {p : String}
    {r : Rule} {e : Eligibility} {h₁ : Host}
    (hgates : Host.stage.Amid R { s with warmer := some (w.hold p), requested := [] }
      (eligibility r now) e h₁)
    {I : List String} {P S : Nat} (hgate : w.gate = (I, P, S)) :
    ∃ w₁, h₁.warmer = some w₁ ∧ w₁.inFlight = p :: I ∧ w₁.permits = P ∧ w₁.counters.skippedBusy = S := by
  obtain ⟨w₁, hw₁, hg⟩ := Option.map_eq_some_iff.1 (eligibility_keepsGate hR hgates)
  simp only [Warmer.gate, Warmer.hold, Prod.mk.injEq] at hg hgate
  exact ⟨w₁, hw₁, hg.1.trans (by rw [hgate.1]), hg.2.1.trans hgate.2.1, hg.2.2.trans hgate.2.2⟩

end Act

/-- The claims, free permits and busy count a dispatch of pattern `p` leaves after its verdict, from
those it found. -/
def Verdict.moveGate (p : String) : Verdict → List String × Nat × Nat → List String × Nat × Nat
  | inFlight, g | ineligible _, g => g
  | busy, (I, P, S) => (I, P, S + 1)
  | started, (I, P, S) => (p :: I, P - 1, S)

section Sweep

variable {R : Host → Host → Prop} {now : Instant} {h h' : Host}

/-- One dispatch amid others that leave the checks alone: the rule is found in flight exactly when
its pattern is claimed; a rule that passes the gates starts exactly when a permit is free; and the
claims, the free permits and the busy count move as the verdict says. -/
theorem Dispatched.moves_gate (hR : ∀ {s s'}, R s s' → s.KeepsGate s') {r : Rule} {v : Verdict}
    (hd : Dispatched R r now h v h') {I : List String} {P S : Nat}
    (hgate : h.warmer.map Warmer.gate = some (I, P, S)) :
    (v = .inFlight ↔ r.pattern ∈ I) ∧ (v.passed = true → (v.isStarted = true ↔ P ≠ 0)) ∧
      h'.warmer.map Warmer.gate = some (v.moveGate r.pattern (I, P, S)) := by
  obtain ⟨w, hw, hwg⟩ := Option.map_eq_some_iff.1 hgate
  cases hd with
  | inFlight hheld =>
    exact ⟨iff_of_true rfl ((Warmer.claimed_iff_mem hwg).1 (hheld w hw)), (fun h => by cases h), hgate⟩
  | @ineligible w' h₁ e hw' hfree hgates hne =>
    obtain rfl := Option.some.inj (hw.symm.trans hw')
    have hnotin := Warmer.not_mem_of_unclaimed hwg hfree
    obtain ⟨w₁, hw₁, hI₁, hP₁, hS₁⟩ := Act.gates_keep_gate hR hgates hwg
    refine ⟨iff_of_false (fun h => by cases h) hnotin, (fun h => by cases h), ?_⟩
    simp [Verdict.moveGate, hw₁, Warmer.gate, Warmer.release, hI₁, hP₁, hS₁,
      Warmer.filter_ne_cons hnotin]
  | @busy w' h₁ w₁ hw' hfree hgates hw₁ hzero =>
    obtain rfl := Option.some.inj (hw.symm.trans hw')
    have hnotin := Warmer.not_mem_of_unclaimed hwg hfree
    obtain ⟨w₂, hw₂, hI₂, hP₂, hS₂⟩ := Act.gates_keep_gate hR hgates hwg
    obtain rfl := Option.some.inj (hw₂.symm.trans hw₁)
    -- no permit was free when the gates returned, and none came free while they ran
    refine ⟨iff_of_false (fun h => by cases h) hnotin, fun _ => by simp [← hP₂, hzero], ?_⟩
    simp [Verdict.moveGate, hI₂, hP₂, hS₂, Warmer.filter_ne_cons hnotin]
  | @gone w' h₁ hw' hfree hgates hgone =>
    obtain rfl := Option.some.inj (hw.symm.trans hw')
    obtain ⟨w₁, hw₁, -⟩ := Act.gates_keep_gate hR hgates hwg
    rw [hgone] at hw₁
    cases hw₁
  | @started w' h₁ w₁ hw' hfree hgates hw₁ hpermit =>
    obtain rfl := Option.some.inj (hw.symm.trans hw')
    have hnotin := Warmer.not_mem_of_unclaimed hwg hfree
    obtain ⟨w₂, hw₂, hI₂, hP₂, hS₂⟩ := Act.gates_keep_gate hR hgates hwg
    obtain rfl := Option.some.inj (hw₂.symm.trans hw₁)
    refine ⟨iff_of_false (fun h => by cases h) hnotin, fun _ => by simp [← hP₂, hpermit], ?_⟩
    simp [Verdict.moveGate, hI₂, hP₂, hS₂]

/-- The patterns of the rules that were claimed and found eligible, in order. -/
abbrev passedPatterns (rs : List Rule) (vs : List Verdict) : List String :=
  patternsWith Verdict.passed rs vs

/-- The patterns of the rules started, in order. -/
abbrev startedPatterns (rs : List Rule) (vs : List Verdict) : List String :=
  patternsWith Verdict.isStarted rs vs

theorem inFlight_iff_cons {I : List String} {r : Rule} {rs : List Rule} {v : Verdict}
    {vs : List Verdict} (hhead : v = .inFlight ↔ r.pattern ∈ I)
    (htail : ∀ r' v', (r', v') ∈ rs.zip vs → (v' = .inFlight ↔ r'.pattern ∈ I)) :
    ∀ r' v', (r', v') ∈ (r :: rs).zip (v :: vs) → (v' = .inFlight ↔ r'.pattern ∈ I) := by
  intro r' v' hmem
  rcases List.mem_cons.1 hmem with heq | hmem
  · cases heq
    exact hhead
  · exact htail r' v' hmem

/-- Amid others that leave the checks alone, a sweep from claims `I`, `P` free permits and busy
count `S` finds in flight exactly the rules in `I`; of the rules that pass the claim and the gates
it starts the first `P` and counts the rest as skipped busy, each once; and it leaves the started
patterns claimed and the permits they took taken. -/
theorem Swept.first_passed (hR : ∀ {s s'}, R s s' → s.KeepsGate s') {rs : List Rule}
    {vs : List Verdict} (hs : Swept R now h rs vs h') {I : List String} {P S : Nat}
    (hgate : h.warmer.map Warmer.gate = some (I, P, S)) (hnodup : (rs.map Rule.pattern).Nodup) :
    (∀ r v, (r, v) ∈ rs.zip vs → (v = .inFlight ↔ r.pattern ∈ I)) ∧
      startedPatterns rs vs = (passedPatterns rs vs).take P ∧
      h'.warmer.map Warmer.gate =
        some ((startedPatterns rs vs).reverse ++ I, P - (passedPatterns rs vs).length,
          S + ((passedPatterns rs vs).length - P)) := by
  -- induction on the sweep, from the gate each dispatch leaves to the next
  induction hs generalizing I P S with
  | nil => exact ⟨(fun _ _ h => by cases h), by simp, by simpa using hgate⟩
  | @cons h r rs v vs h₁ h' hv hrest ih =>
    obtain ⟨hfresh, hnodup⟩ := List.nodup_cons.1 hnodup
    obtain ⟨hhead, hpermit, hnext⟩ := hv.moves_gate hR hgate
    cases v with
    | inFlight | ineligible e =>
      obtain ⟨htail, hstarted, hend⟩ := ih hnext hnodup
      exact ⟨inFlight_iff_cons hhead htail, by simpa using hstarted, by simpa using hend⟩
    | busy =>
      obtain rfl : P = 0 := by simpa using hpermit rfl
      obtain ⟨htail, hstarted, hend⟩ := ih hnext hnodup
      refine ⟨inFlight_iff_cons hhead htail, by simpa using hstarted, ?_⟩
      rw [hend]
      simp only [passedPatterns, startedPatterns, patternsWith_cons, Verdict.passed,
        Verdict.isStarted, Bool.false_eq_true, ↓reduceIte, List.length_cons, Option.some.injEq,
        Prod.mk.injEq, true_and]
      omega
    | started =>
      obtain ⟨P, rfl⟩ := Nat.exists_eq_succ_of_ne_zero ((hpermit rfl).1 rfl)
      obtain ⟨htail, hstarted, hend⟩ := ih hnext hnodup
      -- the patterns later in the sweep are not this rule's, so its claim does not hide them
      have hlater : ∀ r' v', (r', v') ∈ rs.zip vs → r'.pattern ≠ r.pattern := fun r' v' hmem heq =>
        hfresh (heq ▸ List.mem_map_of_mem (List.of_mem_zip hmem).1)
      refine ⟨inFlight_iff_cons hhead
        (fun r' v' hmem => (htail r' v' hmem).trans (by simp [hlater r' v' hmem])), ?_, ?_⟩
      · simp [hstarted]
      · rw [hend]
        simp

/-- A sweep of `rs` from `h` answering `ds`: the patterns started, in rule order and each once; and,
when the others leave the checks alone, the count against the claims, the free permits and the busy
count of `w`. -/
def Sweeps (R : Host → Host → Prop) (now : Instant) (w : Warmer) (h : Host) (rs : List Rule)
    (ds : List String) (h' : Host) : Prop :=
  ∃ vs, Swept R now h rs vs h' ∧ ds = startedPatterns rs vs ∧
    List.Sublist ds (rs.map Rule.pattern) ∧ ds.Nodup ∧
    ((∀ {s s'}, R s s' → s.KeepsGate s') →
      (∀ r v, (r, v) ∈ rs.zip vs → (v = .inFlight ↔ r.pattern ∈ w.inFlight)) ∧
      ds = (passedPatterns rs vs).take w.permits ∧
      h'.warmer.map Warmer.gate =
        some (ds.reverse ++ w.inFlight, w.permits - (passedPatterns rs vs).length,
          w.counters.skippedBusy + ((passedPatterns rs vs).length - w.permits)))

end Sweep

namespace Act

open Stage

variable {R : Host → Host → Prop} {s s' : Host} {now : Instant}

theorem dispatchAll_sweeps {rs : List Rule} {trigger : Option String} {ds : List String}
    {w : Warmer} (hgate : s.warmer.map Warmer.gate = some w.gate)
    (hnodup : (rs.map Rule.pattern).Nodup)
    (hrun : Host.stage.Amid R s (dispatchAll rs now trigger) ds s') : Sweeps R now w s rs ds s' := by
  obtain ⟨vs, hswept, rfl⟩ := dispatchAll_run hrun
  have hsub := patternsWith_sublist Verdict.isStarted rs vs
  exact ⟨vs, hswept, rfl, hsub, hsub.nodup hnodup, fun hR => hswept.first_passed hR hgate hnodup⟩

/-! ## A tick and a trigger -/

/-- The rules a tick reaches are all the registered rules, most urgent first and then by pattern;
each is dispatched in turn, and the patterns started come back in that order, each once. When the
others leave the claims, the free permits and the busy count alone while it runs, the rules in flight
are passed over, the first rules to be claimed and found eligible take the free permits, and every
later one is counted as skipped busy. A written key reaches, in the same order, the rules whose glob
matches it, once the trigger is counted; a marker key reaches none and leaves the host as it was. -/
theorem dispatch_follows_rule_order {h : Host} {w : Warmer} (hw : h.warmer = some w)
    (huniq : (w.registry.rules.map Rule.pattern).Nodup) :
    (∀ r, (∃ e, w.registry.register r = .error e) ↔
      r.pattern ∈ w.registry.rules.map Rule.pattern ∨ r.pattern ∈ r.dependencies) ∧
    (∀ r g, w.registry.register r = .ok g → (g.rules.map Rule.pattern).Nodup) ∧
    w.registry.ordered.Perm w.registry.rules ∧ w.registry.ordered.Pairwise Rule.Precedes ∧
      (∀ {ds h'}, Host.stage.Amid R h (tick now) ds h' →
        Sweeps R now w h w.registry.ordered ds h') ∧
      ∀ {key ds h'}, Host.stage.Amid R h (handleTrigger key now) ds h' →
        if markerPrefix.isPrefixOf key = true then ds = [] ∧ h' = h
        else (w.registry.matching key).Pairwise Rule.Precedes ∧
          (∀ r, r ∈ w.registry.matching key ↔ r ∈ w.registry.rules ∧ globMatch r.pattern key = true) ∧
          Sweeps R now w
            { h with warmer := some (w.count fun c => { c with triggers := c.triggers + 1 }),
                     requested := [] }
            (w.registry.matching key) ds h' := by
  obtain ⟨hperm, hprecedes⟩ := Registry.ordered_precedes huniq
  have horder : (w.registry.ordered.map Rule.pattern).Nodup := (hperm.map Rule.pattern).nodup_iff.2 huniq
  have hgate : h.warmer.map Warmer.gate = some w.gate := by rw [hw]; rfl
  refine ⟨fun r => Registry.register_refused_iff,
    fun r g hreg => Registry.register_keeps_patterns_distinct hreg huniq, hperm, hprecedes,
    fun hrun => ?_, fun {key ds h'} hrun => ?_⟩
  · -- a tick reads the rules in order, then sweeps them
    obtain ⟨rs, h₁, hlook, hsweep⟩ := Amid.of_bind hrun
    obtain ⟨rfl, rfl⟩ := Amid.read_done hlook
    rw [hw] at hsweep
    exact dispatchAll_sweeps hgate horder hsweep
  · unfold handleTrigger at hrun
    split at hrun
    · obtain ⟨rfl, rfl⟩ := Amid.done_iff.1 hrun
      simp_all
    · next hmarker =>
      rw [if_neg hmarker]
      have hsweep := Amid.modify_bind hrun
      obtain ⟨rs, h₁, hlook, hsweep⟩ := Amid.of_bind hsweep
      obtain ⟨rfl, rfl⟩ := Amid.read_done hlook
      simp only [Host.stage_takeJobs, hw, Option.map_some, Option.getD_some] at hsweep
      have hmatching : (w.registry.matching key).Sublist w.registry.ordered := List.filter_sublist
      refine ⟨hprecedes.sublist hmatching, fun r => ?_,
        dispatchAll_sweeps rfl ((hmatching.map Rule.pattern).nodup horder) hsweep⟩
      simp [Registry.matching, hperm.mem_iff]

/-- The host with the slow rule and its dependent, amid others that leave the checks alone, at noon
on 4 March 2024. -/
theorem pair_rules_dispatched_in_order :
    pairHost.warmer = some pairWarmer ∧ (pairWarmer.registry.rules.map Rule.pattern).Nodup ∧
      (∀ r, (∃ e, pairWarmer.registry.register r = .error e) ↔
        r.pattern ∈ pairWarmer.registry.rules.map Rule.pattern ∨ r.pattern ∈ r.dependencies) ∧
      (∀ r g, pairWarmer.registry.register r = .ok g → (g.rules.map Rule.pattern).Nodup) ∧
      pairWarmer.registry.ordered.Perm pairWarmer.registry.rules ∧
      pairWarmer.registry.ordered.Pairwise Rule.Precedes ∧
      (∀ {ds h'}, Host.stage.Amid Host.KeepsGate pairHost (tick marchNoon) ds h' →
        Sweeps Host.KeepsGate marchNoon pairWarmer pairHost pairWarmer.registry.ordered ds h') ∧
      ∀ {key ds h'}, Host.stage.Amid Host.KeepsGate pairHost (handleTrigger key marchNoon) ds h' →
        if markerPrefix.isPrefixOf key = true then ds = [] ∧ h' = pairHost
        else (pairWarmer.registry.matching key).Pairwise Rule.Precedes ∧
          (∀ r, r ∈ pairWarmer.registry.matching key ↔
            r ∈ pairWarmer.registry.rules ∧ globMatch r.pattern key = true) ∧
          Sweeps Host.KeepsGate marchNoon pairWarmer
            { pairHost with
              warmer := some (pairWarmer.count fun c => { c with triggers := c.triggers + 1 }),
              requested := [] }
            (pairWarmer.registry.matching key) ds h' :=
  ⟨rfl, by decide, dispatch_follows_rule_order rfl (by decide)⟩

end Act

end TierCache
