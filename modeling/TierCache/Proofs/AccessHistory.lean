import Mathlib
import TierCache.Proofs.EligibilityGates
/-!
# Access histories

Every run of the tracker's operations keeps each user's window within `historyLen` accesses, with
its peak hours the busiest hours of that window (`peakHours_iff`). A prune drops accesses from the
front only, so an access that arrives late can outlive the retention.
-/

namespace TierCache

/-! ### Peak hours -/

/-- How often hour of day `h` occurs among `times`. -/
def hourCount (times : List Instant) (h : Nat) : Nat := times.countP fun t => t.hour == h

/-- The order `busiestHours` sorts by: more frequent first, the earlier hour first on ties. -/
def hourRanks (times : List Instant) (a b : Nat) : Bool :=
  hourCount times a > hourCount times b || (hourCount times a == hourCount times b && a ≤ b)

/-- Hour `a` ranks strictly before hour `b` among `times`. -/
def HourBefore (times : List Instant) (a b : Nat) : Prop :=
  hourCount times b < hourCount times a ∨ (hourCount times a = hourCount times b ∧ a < b)

/-- `hs` are the busiest hours of `times`: hours that occur, ranked, at most `peakHourCount` of
them, and an hour that occurs is left out only when `hs` is full of hours that rank before it. -/
structure PeakHours (times : List Instant) (hs : List Nat) : Prop where
  ranked : hs.Pairwise (HourBefore times)
  occur : ∀ h ∈ hs, 0 < hourCount times h
  short : hs.length ≤ peakHourCount
  full : ∀ h, 0 < hourCount times h → h ∉ hs →
    hs.length = peakHourCount ∧ ∀ x ∈ hs, HourBefore times x h

theorem busiestHours_eq (times : List Instant) :
    busiestHours times =
      (((List.range 24).filter fun h => 0 < hourCount times h).mergeSort (hourRanks times)).take
        peakHourCount := rfl

section Ranks

variable {times : List Instant} {a b c : Nat}

theorem hourRanks_trans (hab : hourRanks times a b) (hbc : hourRanks times b c) :
    hourRanks times a c := by
  simp only [hourRanks, Bool.or_eq_true, Bool.and_eq_true, decide_eq_true_eq, beq_iff_eq] at *
  omega

theorem hourRanks_total (a b : Nat) : (hourRanks times a b || hourRanks times b a) = true := by
  simp only [hourRanks, Bool.or_eq_true, Bool.and_eq_true, decide_eq_true_eq, beq_iff_eq]
  omega

theorem HourBefore.of_hourRanks (h : hourRanks times a b) (hne : a ≠ b) : HourBefore times a b := by
  simp only [hourRanks, Bool.or_eq_true, Bool.and_eq_true, decide_eq_true_eq, beq_iff_eq] at h
  unfold HourBefore
  omega

theorem lt_24_of_hourCount_pos {h : Nat} (hpos : 0 < hourCount times h) : h < 24 := by
  obtain ⟨t, -, ht⟩ := List.countP_pos_iff.1 hpos
  have := Instant.hour_lt t
  rw [beq_iff_eq] at ht
  omega

end Ranks

/-- The hours `busiestHours` keeps are the busiest ones. -/
theorem busiestHours_peak (times : List Instant) : PeakHours times (busiestHours times) := by
  rw [busiestHours_eq]
  set ranked := ((List.range 24).filter fun h => 0 < hourCount times h).mergeSort (hourRanks times)
  -- the sort is by a total preorder, and the hours are distinct, so the order is strict
  have hsorted : ranked.Pairwise (HourBefore times) := by
    have hle := List.pairwise_mergeSort (fun a b c => @hourRanks_trans times a b c) (@hourRanks_total times)
      ((List.range 24).filter fun h => 0 < hourCount times h)
    have hnd : ranked.Nodup := List.nodup_mergeSort.2 (List.nodup_range.filter _)
    exact (hle.and hnd).imp fun h => HourBefore.of_hourRanks h.1 h.2
  have hmem : ∀ h, h ∈ ranked ↔ 0 < hourCount times h := by
    intro h
    simp only [ranked, List.mem_mergeSort, List.mem_filter, List.mem_range, decide_eq_true_eq]
    exact ⟨fun hh => hh.2, fun hpos => ⟨lt_24_of_hourCount_pos hpos, hpos⟩⟩
  refine ⟨hsorted.sublist (List.take_sublist _ _), fun h hh => (hmem h).1 (List.mem_of_mem_take hh),
    List.length_take_le _ _, fun h hpos hout => ?_⟩
  -- an hour left out lies past the cut, so the cut is full and everything before it ranks first
  have hsplit := List.take_append_drop peakHourCount ranked
  have hdrop : h ∈ ranked.drop peakHourCount := by
    have hin := (hmem h).2 hpos
    rw [← hsplit, List.mem_append] at hin
    exact hin.resolve_left hout
  refine ⟨?_, fun x hx => ?_⟩
  · have := List.length_pos_of_mem hdrop
    simp only [List.length_drop, List.length_take] at this ⊢
    omega
  · rw [← hsplit, List.pairwise_append] at hsorted
    exact hsorted.2.2 x hx h hdrop

theorem HourBefore.asymm {times : List Instant} {a b : Nat} (hab : HourBefore times a b) :
    ¬ HourBefore times b a := by
  unfold HourBefore at *
  omega

namespace PeakHours

variable {times : List Instant} {hs hs' : List Nat}

theorem nodup (h : PeakHours times hs) : hs.Nodup :=
  h.ranked.imp fun hab => by
    rintro rfl
    exact hab.asymm hab

theorem mem_of_mem (h : PeakHours times hs) (h' : PeakHours times hs') {x : Nat} (hx : x ∈ hs) :
    x ∈ hs' := by
  by_contra hx'
  -- `hs'` is then full of hours before `x`, and each of them is in `hs` too: one hour too many
  obtain ⟨hfull, hbefore⟩ := h'.full x (h.occur x hx) hx'
  have hsub : x :: hs' ⊆ hs := by
    intro y hy
    rcases List.mem_cons.1 hy with rfl | hy
    · exact hx
    · by_contra hny
      exact (hbefore y hy).asymm ((h.full y (h'.occur y hy) hny).2 x hx)
  have hlen := (List.nodup_cons.2 ⟨hx', h'.nodup⟩).length_le_of_subset hsub
  have hshort := h.short
  simp only [List.length_cons] at hlen
  omega

/-- There is one list of busiest hours: which hours, their order and the cut are all fixed. -/
theorem unique (h : PeakHours times hs) (h' : PeakHours times hs') : hs = hs' := by
  have hperm : hs.Perm hs' :=
    (List.perm_ext_iff_of_nodup h.nodup h'.nodup).2 fun x => ⟨h.mem_of_mem h', h'.mem_of_mem h⟩
  exact List.Perm.eq_of_pairwise (fun _ _ _ _ hab hba => absurd hba hab.asymm) h.ranked h'.ranked hperm

end PeakHours

theorem peakHours_iff {times : List Instant} {hs : List Nat} :
    PeakHours times hs ↔ hs = busiestHours times :=
  ⟨fun h => h.unique (busiestHours_peak times), fun h => h ▸ busiestHours_peak times⟩

theorem busiestHours_nil : busiestHours [] = [] := by
  simp [busiestHours_eq, hourCount]

/-! ### One window -/

namespace AccessPattern

/-- A window as its tracker keeps it: at most `limit` accesses, no time twice in a row, and the
peak hours of exactly these accesses. -/
structure Wf (limit : Nat) (p : AccessPattern) : Prop where
  bounded : p.accesses.length ≤ limit
  no_repeat : p.accesses.IsChain (· ≠ ·)
  peaks : p.peakHours = busiestHours p.accesses

variable {p q : AccessPattern} {limit : Nat}

theorem wf_empty (limit : Nat) (user : String) : ({ userId := user } : AccessPattern).Wf limit where
  bounded := Nat.zero_le _
  no_repeat := .nil
  peaks := busiestHours_nil.symm

/-- Only the accesses and the peak hours of a pattern matter to how it is kept. -/
theorem Wf.congr (h : p.Wf limit) (ha : q.accesses = p.accesses) (hp : q.peakHours = p.peakHours) :
    q.Wf limit where
  bounded := ha ▸ h.bounded
  no_repeat := ha ▸ h.no_repeat
  peaks := ha ▸ hp ▸ h.peaks

@[simp] theorem record_userId (p : AccessPattern) (limit : Nat) (time : Instant) :
    (p.record limit time).userId = p.userId := by
  unfold record
  split <;> rfl

@[simp] theorem prune_userId (p : AccessPattern) (cutoff : Instant) :
    (p.prune cutoff).userId = p.userId := by
  unfold prune
  dsimp only
  split <;> rfl

theorem Wf.record (h : p.Wf limit) (time : Instant) : (p.record limit time).Wf limit := by
  unfold AccessPattern.record
  split
  · exact h
  · rename_i hlast
    -- the new time differs from the last one kept, so appending it makes no repeat
    have hchain : (p.accesses ++ [time]).IsChain (· ≠ ·) := by
      refine h.no_repeat.append (.singleton _) fun x hx y hy => ?_
      rw [List.head?_cons, Option.mem_some_iff] at hy
      subst hy
      rintro rfl
      exact hlast (by simp [lastAccess, Option.mem_def.1 hx])
    refine ⟨?_, hchain.drop _, rfl⟩
    simp only [List.length_drop, List.length_append, List.length_singleton]
    omega

theorem prune_accesses (p : AccessPattern) (cutoff : Instant) :
    (p.prune cutoff).accesses = p.accesses.dropWhile fun t => t < cutoff := by
  unfold prune
  dsimp only
  split
  · rename_i hlen
    exact ((List.dropWhile_suffix _).eq_of_length (beq_iff_eq.1 hlen)).symm
  · rfl

@[simp] theorem map_prune_userId (l : List AccessPattern) (cutoff : Instant) :
    (l.map (·.prune cutoff)).map (·.userId) = l.map (·.userId) := by
  rw [List.map_map]
  exact List.map_congr_left fun p _ => prune_userId p cutoff

theorem Wf.prune (h : p.Wf limit) (cutoff : Instant) : (p.prune cutoff).Wf limit := by
  unfold AccessPattern.prune
  dsimp only
  split
  · exact h
  · have hsuf := List.dropWhile_suffix (fun t => decide (t < cutoff)) (l := p.accesses)
    exact ⟨hsuf.length_le.trans h.bounded, h.no_repeat.suffix hsuf, rfl⟩

end AccessPattern

section Outcomes

variable {ε α β : Type} {x : Except ε α} {b : β}

theorem Except.bind_eq_ok {f : α → Except ε β} (h : x >>= f = .ok b) : ∃ a, x = .ok a ∧ f a = .ok b := by
  cases x with
  | error e => cases h
  | ok a => exact ⟨a, rfl, h⟩

theorem Except.map_eq_ok {f : α → β} (h : x.map f = .ok b) : ∃ a, x = .ok a ∧ f a = b := by
  cases x with
  | error e => cases h
  | ok a => exact ⟨a, rfl, Except.ok.inj h⟩

end Outcomes

/-! ### The tracker -/

namespace AccessTracker

/-- A tracker as its operations keep it: one pattern per user, in user-id order, each window
kept within the tracker's history length. -/
structure Wf (t : AccessTracker) : Prop where
  sorted : (t.patterns.map (·.userId)).Pairwise (· < ·)
  windows : ∀ p ∈ t.patterns, p.Wf t.historyLen

theorem Wf.nodup {t : AccessTracker} (h : t.Wf) : (t.patterns.map (·.userId)).Nodup :=
  h.sorted.imp ne_of_lt

theorem create_wf {historyLen : Nat} {retentionDays : Int} {t : AccessTracker}
    (h : create historyLen retentionDays = .ok t) : t.Wf ∧ t.historyLen = max historyLen 1 := by
  obtain ⟨secs, -, h⟩ := Except.bind_eq_ok h
  cases h
  exact ⟨⟨.nil, fun _ hp => (List.not_mem_nil hp).elim⟩, rfl⟩

section Modify

variable {user : String} {f : AccessPattern → AccessPattern}

theorem modify_go_ids (hf : ∀ p, (f p).userId = p.userId) (l : List AccessPattern) :
    ∀ x ∈ (modify.go user f l).map (·.userId), x = user ∨ x ∈ l.map (·.userId) := by
  induction l with
  | nil => simp [modify.go, hf]
  | cons p rest ih =>
    unfold modify.go
    split_ifs
    · simp only [List.map_cons, hf, List.mem_cons]
      rintro x (rfl | hx)
      · exact .inl rfl
      · exact .inr hx
    · simp only [List.map_cons, hf, List.mem_cons]
      rintro x (rfl | hx)
      · exact .inr (.inl rfl)
      · exact .inr (.inr hx)
    · simp only [List.map_cons, List.mem_cons]
      rintro x (rfl | hx)
      · exact .inr (.inl rfl)
      · exact (ih x hx).imp_right .inr

theorem modify_go_sorted (hf : ∀ p, (f p).userId = p.userId) (l : List AccessPattern)
    (hl : (l.map (·.userId)).Pairwise (· < ·)) :
    ((modify.go user f l).map (·.userId)).Pairwise (· < ·) := by
  induction l with
  | nil => simp [modify.go]
  | cons p rest ih =>
    rw [List.map_cons, List.pairwise_cons] at hl
    unfold modify.go
    split_ifs with hlt heq
    · -- a new user before the first one
      simp only [List.map_cons, hf, List.pairwise_cons, List.mem_cons]
      refine ⟨fun x hx => ?_, hl.1, hl.2⟩
      rcases hx with rfl | hx
      · exact hlt
      · exact lt_trans hlt (hl.1 x hx)
    · simpa [hf] using hl
    · -- the user goes further on, past a first user whose id is smaller
      have hgt : p.userId < user := lt_of_le_of_ne (not_lt.1 hlt) fun he => heq (by simp [he])
      rw [List.map_cons, List.pairwise_cons]
      refine ⟨fun x hx => ?_, ih hl.2⟩
      rcases modify_go_ids hf rest x hx with rfl | hx
      · exact hgt
      · exact hl.1 x hx

theorem modify_go_windows (l : List AccessPattern) {P : AccessPattern → Prop}
    (hl : ∀ p ∈ l, P p) (hnew : P (f { userId := user })) (hf : ∀ p, P p → P (f p)) :
    ∀ p ∈ modify.go user f l, P p := by
  induction l with
  | nil => simpa [modify.go] using hnew
  | cons q rest ih =>
    simp only [List.mem_cons, forall_eq_or_imp] at hl
    unfold modify.go
    split_ifs
    · simpa [hnew] using hl
    · simpa [hf q hl.1] using hl.2
    · simpa [hl.1] using ih hl.2

/-- A change to one user's pattern that keeps its id and how it is kept keeps the tracker. -/
theorem Wf.modify {t : AccessTracker} (h : t.Wf) (hid : ∀ p, (f p).userId = p.userId)
    (hf : ∀ p, p.Wf t.historyLen → (f p).Wf t.historyLen) : (t.modify user f).Wf where
  sorted := modify_go_sorted hid _ h.sorted
  windows := modify_go_windows _ h.windows (hf _ (AccessPattern.wf_empty _ _)) hf

end Modify

variable {t t' : AccessTracker}

theorem Wf.recordAccess (h : t.Wf) (user : String) (time : Instant) (key : Option String) :
    (t.recordAccess user time key).Wf := by
  refine h.modify (fun p => ?_) (fun p hp => ?_)
  · cases key <;> simp
  · have hrec := hp.record time
    cases key with
    | none => exact hrec
    | some k => exact hrec.congr rfl rfl

theorem Wf.setPreferences (h : t.Wf) (user : String) (prefs : List String) :
    (t.setPreferences user prefs).Wf :=
  h.modify (fun _ => rfl) fun _ hp => hp.congr rfl rfl

/-- What a successful prune leaves: the patterns that still have an access once the accesses
before the cutoff are dropped, and the count of the others. -/
theorem prune_ok {now : Instant} {n : Nat} (h : t.prune now = .ok (n, t')) :
    ∃ cutoff, now.back t.retentionSecs = .ok cutoff ∧
      t' = { t with
        patterns := (t.patterns.filter fun p => !(p.prune cutoff).accesses.isEmpty).map (·.prune cutoff) } ∧
      n = t.patterns.length - t'.patterns.length := by
  obtain ⟨cutoff, hb, h⟩ := Except.bind_eq_ok h
  cases h
  refine ⟨cutoff, hb, ?_, rfl⟩
  rw [List.filter_map]
  rfl

theorem Wf.prune (h : t.Wf) {now : Instant} {n : Nat} (hp : t.prune now = .ok (n, t')) : t'.Wf := by
  obtain ⟨cutoff, -, rfl, -⟩ := prune_ok hp
  refine ⟨?_, fun p hp => ?_⟩
  · -- pruning keeps every id, and dropping users keeps the order of the rest
    rw [AccessPattern.map_prune_userId]
    exact h.sorted.sublist (List.filter_sublist.map _)
  · obtain ⟨q, hq, rfl⟩ := List.mem_map.1 hp
    exact (h.windows q (List.mem_filter.1 hq).1).prune cutoff

theorem prune_nonempty {now : Instant} {n : Nat} (h : t.prune now = .ok (n, t')) :
    ∀ p ∈ t'.patterns, p.accesses ≠ [] := by
  obtain ⟨cutoff, -, rfl, -⟩ := prune_ok h
  intro p hp
  obtain ⟨q, hq, rfl⟩ := List.mem_map.1 hp
  have hkeep := (List.mem_filter.1 hq).2
  rw [Bool.not_eq_true', List.isEmpty_eq_false_iff] at hkeep
  exact hkeep

/-- Of entries that name one user each, the users a filter leaves out are as many as the entries
it drops. -/
theorem length_filter_not_mem_map {α β : Type} [DecidableEq β] {l : List α} {f : α → β}
    (hl : (l.map f).Nodup) (q : α → Bool) :
    ((l.map f).filter fun x => x ∉ (l.filter q).map f).length = l.length - (l.filter q).length := by
  have hfilter : (l.map f).filter (fun x => x ∉ (l.filter q).map f) = (l.filter fun a => !q a).map f := by
    rw [List.filter_map]
    congr 1
    refine List.filter_congr fun a ha => ?_
    cases hq : q a
    · -- an entry the filter drops names a user no kept entry names
      simp only [Function.comp, List.mem_map, List.mem_filter, Bool.not_false, decide_eq_true_eq]
      rintro ⟨b, ⟨hb, hqb⟩, hfb⟩
      rw [List.inj_on_of_nodup_map hl hb ha hfb, hq] at hqb
      exact Bool.false_ne_true hqb
    · simp only [Function.comp, Bool.not_true, decide_eq_false_iff_not, not_not]
      exact List.mem_map.2 ⟨a, List.mem_filter.2 ⟨ha, hq⟩, rfl⟩
  have hsplit := List.length_eq_length_filter_add (l := l) q
  rw [hfilter, List.length_map]
  omega

theorem prune_count (hnd : (t.patterns.map (·.userId)).Nodup) {now : Instant} {n : Nat}
    (h : t.prune now = .ok (n, t')) :
    n = ((t.patterns.map (·.userId)).filter (· ∉ t'.patterns.map (·.userId))).length := by
  obtain ⟨cutoff, -, rfl, rfl⟩ := prune_ok h
  rw [AccessPattern.map_prune_userId, List.length_map]
  exact (length_filter_not_mem_map hnd _).symm

theorem Wf.refresh (h : t.Wf) {users : List Activity} {now : Instant} {n : Nat}
    (hr : t.refresh users now = .ok (n, t')) : t'.Wf ∧ t'.historyLen = t.historyLen := by
  obtain ⟨since, -, hfold⟩ := Except.bind_eq_ok hr
  clear hr
  cases hfold
  -- each user seen is an access and perhaps new preferences, and neither changes the length
  generalize (DataSource.mk users [] 0 0 false 0).recentlyActive since = recent
  induction recent generalizing t with
  | nil => exact ⟨h, rfl⟩
  | cons u rest ih =>
    rw [List.foldl_cons]
    have hrec := h.recordAccess u.userId u.lastActive (some ("user:" ++ u.userId ++ ":profile"))
    split
    · exact ih hrec
    · exact ih (hrec.setPreferences _ _)

end AccessTracker

/-! ### Runs of operations -/

/-- An operation on the tracker. A refresh carries the activity its source reported; a refresh
whose source fails changes nothing. -/
inductive TrackerOp where
  | record (user : String) (time : Instant) (key : Option String)
  | prefs (user : String) (prefs : List String)
  | refresh (users : List Activity) (now : Instant)
  | prune (now : Instant)

namespace TrackerOp

/-- One operation; a refresh or a prune whose time leaves the calendar fails. -/
def step (t : AccessTracker) : TrackerOp → Except TimeOverflow AccessTracker
  | record user time key => .ok (t.recordAccess user time key)
  | prefs user saved => .ok (t.setPreferences user saved)
  | refresh users now => (t.refresh users now).map (·.2)
  | prune now => (t.prune now).map (·.2)

/-- Operations one after another, halting at the first that fails. -/
def run (t : AccessTracker) : List TrackerOp → Except TimeOverflow AccessTracker
  | [] => .ok t
  | op :: ops => (op.step t).bind fun t => run t ops

variable {t t' : AccessTracker}

theorem step_wf (h : t.Wf) {op : TrackerOp} (hs : op.step t = .ok t') :
    t'.Wf ∧ t'.historyLen = t.historyLen := by
  cases op with
  | record user time key =>
    cases hs
    exact ⟨h.recordAccess user time key, rfl⟩
  | prefs user saved =>
    cases hs
    exact ⟨h.setPreferences user saved, rfl⟩
  | refresh users now =>
    obtain ⟨⟨n, t₁⟩, hr, rfl⟩ := Except.map_eq_ok (x := t.refresh users now) hs
    exact h.refresh hr
  | prune now =>
    obtain ⟨⟨n, t₁⟩, hp, rfl⟩ := Except.map_eq_ok (x := t.prune now) hs
    obtain ⟨cutoff, -, rfl, -⟩ := AccessTracker.prune_ok hp
    exact ⟨h.prune hp, rfl⟩

theorem run_wf (h : t.Wf) {ops : List TrackerOp} (hr : run t ops = .ok t') :
    t'.Wf ∧ t'.historyLen = t.historyLen := by
  induction ops generalizing t with
  | nil =>
    cases hr
    exact ⟨h, rfl⟩
  | cons op ops ih =>
    obtain ⟨t₁, hs, hr⟩ := Except.bind_eq_ok hr
    obtain ⟨h₁, hlen₁⟩ := step_wf h hs
    obtain ⟨h', hlen'⟩ := ih h₁ hr
    exact ⟨h', hlen'.trans hlen₁⟩

end TrackerOp

/-- Through every run of operations on a new tracker, each user's window holds at most the
history length (one at least) with no time twice in a row, and its peak hours are the busiest
hours of exactly that window; and a prune leaves no user without an access and answers the
number of users it forgot. -/
theorem tracker_keeps_windows_and_peaks {historyLen : Nat} {retentionDays : Int}
    {t₀ t : AccessTracker} (hcreate : AccessTracker.create historyLen retentionDays = .ok t₀)
    {ops : List TrackerOp} (hrun : TrackerOp.run t₀ ops = .ok t) :
    (∀ p ∈ t.patterns, p.accesses.length ≤ max historyLen 1 ∧ p.accesses.IsChain (· ≠ ·) ∧
      PeakHours p.accesses p.peakHours) ∧
    ∀ now n t', t.prune now = .ok (n, t') → (∀ p ∈ t'.patterns, p.accesses ≠ []) ∧
      n = ((t.patterns.map (·.userId)).filter (· ∉ t'.patterns.map (·.userId))).length := by
  obtain ⟨h₀, hlen₀⟩ := AccessTracker.create_wf hcreate
  obtain ⟨hw, hlen⟩ := TrackerOp.run_wf h₀ hrun
  refine ⟨fun p hp => ?_, fun now n t' hprune =>
    ⟨AccessTracker.prune_nonempty hprune, AccessTracker.prune_count hw.nodup hprune⟩⟩
  have hwin := hw.windows p hp
  refine ⟨hwin.bounded.trans_eq (hlen.trans hlen₀), hwin.no_repeat, ?_⟩
  rw [hwin.peaks]
  exact busiestHours_peak _

/-- An instant of March 2024, by day and hour. -/
def marchAt (day hour : Nat) : Instant :=
  ⟨(Instant.daysFromCivil 2024 3 day * 86400 + hour * 3600) * Instant.nanosPerSecond⟩

/-- Windows of two accesses: a repeated time, a window that slides, preferences and a prune. -/
theorem sliding_windows_keep_peaks :
    ∃ t₀ t, AccessTracker.create 2 7 = .ok t₀ ∧
      TrackerOp.run t₀ [.record "ana" (marchAt 4 9) none, .record "ana" (marchAt 4 9) (some "a"),
        .record "ana" (marchAt 5 14) none, .record "ana" (marchAt 6 9) none,
        .prefs "bo" ["remote"], .prune (marchAt 12 0)] = .ok t ∧
      (∀ p ∈ t.patterns, p.accesses.length ≤ max 2 1 ∧ p.accesses.IsChain (· ≠ ·) ∧
        PeakHours p.accesses p.peakHours) ∧
      ∀ now n t', t.prune now = .ok (n, t') → (∀ p ∈ t'.patterns, p.accesses ≠ []) ∧
        n = ((t.patterns.map (·.userId)).filter (· ∉ t'.patterns.map (·.userId))).length := by
  refine ⟨?t₀, ?t, ?create, ?run, tracker_keeps_windows_and_peaks ?create ?run⟩
  case create => rfl
  case run => rfl

/-! ### What a prune drops -/

section DropStale

variable {l : List Instant} {cutoff : Instant}

theorem head_dropWhile_ge (hne : l.dropWhile (· < cutoff) ≠ []) :
    ∃ a rest, l.dropWhile (· < cutoff) = a :: rest ∧ cutoff ≤ a := by
  obtain ⟨a, rest, heq⟩ := List.exists_cons_of_ne_nil hne
  have hstop := List.head_dropWhile_not (fun t => decide (t < cutoff)) hne
  simp only [heq, List.head_cons, decide_eq_false_iff_not] at hstop
  have hlt : ¬ a.nanos < cutoff.nanos := hstop
  exact ⟨a, rest, heq, show cutoff.nanos ≤ a.nanos by omega⟩

/-- Times in order, once the ones before `cutoff` are dropped from the front, are all no earlier
than it. -/
theorem ge_of_mem_dropWhile (hl : l.Pairwise (· ≤ ·)) :
    ∀ x ∈ l.dropWhile (· < cutoff), cutoff ≤ x := by
  intro x hx
  obtain ⟨a, rest, heq, ha⟩ := head_dropWhile_ge (List.ne_nil_of_mem hx)
  have hsorted : (a :: rest).Pairwise (· ≤ ·) := heq ▸ hl.sublist (List.dropWhile_suffix _).sublist
  rw [heq, List.mem_cons] at hx
  rcases hx with rfl | hx
  · exact ha
  · have hca : cutoff.nanos ≤ a.nanos := ha
    have hax : a.nanos ≤ x.nanos := List.rel_of_pairwise_cons hsorted hx
    show cutoff.nanos ≤ x.nanos
    omega

end DropStale

/-- A prune keeps of each window what follows its first access inside the retention, and keeps
exactly the users for whom that is not empty. So every window left starts inside the retention,
and a window recorded in time order keeps nothing older. -/
theorem prune_keeps_windows_from_cutoff {t t' : AccessTracker} {now : Instant} {n : Nat}
    (h : t.prune now = .ok (n, t')) :
    ∃ cutoff, now.back t.retentionSecs = .ok cutoff ∧
      (∀ p ∈ t.patterns, p.accesses.dropWhile (· < cutoff) ≠ [] →
        ∃ p' ∈ t'.patterns, p'.userId = p.userId) ∧
      ∀ p' ∈ t'.patterns, ∃ p ∈ t.patterns, p'.userId = p.userId ∧
        p'.accesses = p.accesses.dropWhile (· < cutoff) ∧
        (∃ a rest, p'.accesses = a :: rest ∧ cutoff ≤ a) ∧
        (p.accesses.Pairwise (· ≤ ·) → ∀ a ∈ p'.accesses, cutoff ≤ a) := by
  obtain ⟨cutoff, hb, rfl, -⟩ := AccessTracker.prune_ok h
  refine ⟨cutoff, hb, fun p hp hne => ?_, fun p' hp' => ?_⟩
  · refine ⟨p.prune cutoff, List.mem_map.2 ⟨p, List.mem_filter.2 ⟨hp, ?_⟩, rfl⟩, p.prune_userId cutoff⟩
    rw [AccessPattern.prune_accesses, Bool.not_eq_true', List.isEmpty_eq_false_iff]
    exact hne
  · obtain ⟨p, hp, rfl⟩ := List.mem_map.1 hp'
    have hne := AccessTracker.prune_nonempty h _ hp'
    rw [p.prune_accesses cutoff] at hne ⊢
    exact ⟨p, (List.mem_filter.1 hp).1, p.prune_userId cutoff, rfl, head_dropWhile_ge hne,
      ge_of_mem_dropWhile⟩

/-- Accesses recorded in time order: a prune on 12 March with a week of retention drops the one
of 1 March and keeps the one of 10 March. -/
theorem pruning_a_window_in_time_order :
    ∃ t₀ t n t', AccessTracker.create 100 7 = .ok t₀ ∧
      TrackerOp.run t₀ [.record "u" (marchAt 1 9) none, .record "u" (marchAt 10 9) none] = .ok t ∧
      t.prune (marchAt 12 0) = .ok (n, t') ∧
      ∃ cutoff, (marchAt 12 0).back t.retentionSecs = .ok cutoff ∧
        (∀ p ∈ t.patterns, p.accesses.dropWhile (· < cutoff) ≠ [] →
          ∃ p' ∈ t'.patterns, p'.userId = p.userId) ∧
        ∀ p' ∈ t'.patterns, ∃ p ∈ t.patterns, p'.userId = p.userId ∧
          p'.accesses = p.accesses.dropWhile (· < cutoff) ∧
          (∃ a rest, p'.accesses = a :: rest ∧ cutoff ≤ a) ∧
          (p.accesses.Pairwise (· ≤ ·) → ∀ a ∈ p'.accesses, cutoff ≤ a) := by
  refine ⟨_, _, ?n, ?t', rfl, rfl, ?prune, prune_keeps_windows_from_cutoff ?prune⟩
  case prune => rfl

/-- An access that arrives late outlives the retention: with a week of retention, a user seen on
10 March and then reported for 1 March keeps the access of 1 March through a prune on 12 March,
though it falls more than three days before the cutoff. -/
theorem late_access_outlives_retention :
    ∃ t₀ t n t', AccessTracker.create 100 7 = .ok t₀ ∧
      TrackerOp.run t₀ [.record "u" (marchAt 10 9) none, .record "u" (marchAt 1 9) none] = .ok t ∧
      t.prune (marchAt 12 0) = .ok (n, t') ∧
      t'.patterns.map (·.accesses) = [[marchAt 10 9, marchAt 1 9]] ∧
      marchAt 1 9 < (marchAt 12 0).addSeconds (-(7 * 86400)) :=
  ⟨_, _, _, _, rfl, rfl, rfl, rfl, by decide⟩

end TierCache
