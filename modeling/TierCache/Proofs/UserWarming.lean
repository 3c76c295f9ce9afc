import Mathlib
import TierCache.Proofs.AccessHistory

/-!
# Warming users

A user is warmed by one query and three writes (`UserWarm`); the profiles rule warms its list up
to eight at a time (`ProfilesRun`).

Main statement: `profiles_rule_warms_served_users`.
-/

set_option autoImplicit false

namespace TierCache

/-- A user's snapshot as the source serves it to a warm: refused when the source is set to fail, or
when it does not know the user. -/
def DataSource.serve (s : DataSource) (user : String) : Except CacheError UserSnapshot :=
  if s.failing then .error (.dataSource sourceFailure) else (s.userSnapshot user).mapError .dataSource

/-- The host once the source has counted a query. -/
def Host.afterQuery (h : Host) : Host :=
  { h with source := { h.source with queries := h.source.queries + 1 }, requested := [] }

/-- The host once the profiles rule has found no list of users under the active list's key: a
value found there, which does not read as such a list, counts as an error of the cache. -/
def Host.unlisted (found : Option ByteArray) (h : Host) : Host :=
  if found.isSome then { h with cache := h.cache.count Metrics.error, requested := [] } else h

theorem Host.unlisted_source (found : Option ByteArray) (h : Host) :
    (h.unlisted found).source = h.source := by
  unfold Host.unlisted
  split <;> rfl

/-- A change that keeps the clock and what the source serves. -/
structure Host.Steady (h h' : Host) : Prop where
  clock : h'.clock = h.clock
  serve : h'.source.serve = h.source.serve

/-! ## A cached list of users -/

namespace JsonRead

theorem readString_str {src : ByteArray} {i j : Nat} {v : Json} (h : readString src i = .ok (v, j)) :
    ∃ t, v = .str t := by
  unfold readString readStringWith at h
  dsimp only at h
  split at h
  · cases h
  · obtain ⟨⟨t, k⟩, -, h⟩ := Except.bind_eq_ok h
    exact ⟨t, by cases h; rfl⟩
  · cases h

theorem stringItems_str {src : ByteArray} {fuel i : Nat} {first : Bool} {acc : Array Json}
    {xs : Array Json} {j : Nat} (h : stringItems src fuel i first acc = .ok (xs, j))
    (hacc : ∀ x ∈ acc, ∃ t, x = .str t) : ∀ x ∈ xs, ∃ t, x = .str t := by
  induction fuel generalizing i first acc with
  | zero => cases h
  | succ fuel ih =>
    unfold stringItems at h
    obtain ⟨⟨more, i₁⟩, -, h⟩ := Except.bind_eq_ok h
    cases more with
    | false =>
      cases h
      exact hacc
    | true =>
      obtain ⟨⟨v, i₂⟩, hv, h⟩ := Except.bind_eq_ok h
      refine ih h fun x hx => ?_
      rcases Array.mem_push.1 hx with hx | rfl
      · exact hacc x hx
      · exact readString_str hv


theorem readStrings_str {src : ByteArray} {i j : Nat} {v : Json} (h : readStrings src i = .ok (v, j)) :
    ∃ xs : List Json, v = .arr xs ∧ ∀ x ∈ xs, ∃ t, x = .str t := by
  unfold readStrings at h
  dsimp only at h
  split at h
  · cases h
  · obtain ⟨⟨xs, k⟩, hxs, h⟩ := Except.bind_eq_ok h
    split at h
    · cases h
      exact ⟨xs.toList, rfl, fun x hx => stringItems_str hxs (by simp) x (by simpa using hx)⟩
    · cases h
  · cases h

end JsonRead

/-- What reads as a list of texts holds texts only. -/
theorem Shape.read_strings_str {src : ByteArray} {xs : List Json}
    (h : Shape.strings.read src = .ok (.arr xs)) : ∀ x ∈ xs, ∃ t, x = .str t := by
  unfold Shape.read at h
  obtain ⟨⟨v, i⟩, hv, h⟩ := Except.bind_eq_ok h
  obtain ⟨ys, rfl, hys⟩ := JsonRead.readStrings_str hv
  dsimp only at h
  -- only blanks may follow the list
  split at h
  · cases h
  · cases h
    exact hys

/-- Texts taken out of a list that holds texts only give the list back. -/
theorem map_str_filterMap {f : Json → Option String} (hf : ∀ t, f (.str t) = some t) {xs : List Json}
    (hxs : ∀ x ∈ xs, ∃ t, x = .str t) : (xs.filterMap f).map .str = xs := by
  induction xs with
  | nil => rfl
  | cons x xs ih =>
    obtain ⟨t, rfl⟩ := hxs x (by simp)
    simp [hf, ih fun y hy => hxs y (by simp [hy])]

namespace Condition

/-- Conditions that all held were each evaluated within the calendar: when one of them asks for
active users, the hour before `now` is in it. -/
theorem FirstUnmet.lookback_of_activeUsers {now : Instant} {cs : List Condition}
    {src src' : DataSource} {o : Option Condition} {n : Nat}
    (h : FirstUnmet now cs src o src') (ho : o = none) (hc : .activeUsers n ∈ cs) :
    ∃ since, now.back AccessTracker.lookbackSecs = .ok since := by
  induction h with
  | nil => cases hc
  | unmet => cases ho
  | @met c cs src src₁ o src' hev _ ih =>
    rcases List.mem_cons.1 hc with rfl | hc
    · -- the condition itself looked an hour back
      cases hback : now.back AccessTracker.lookbackSecs with
      | error e => simp [Condition.evaluate, hback] at hev
      | ok since => exact ⟨since, rfl⟩
    · exact ih ho hc

end Condition

namespace Act

open Stage

variable {α β γ : Type} {R : Host → Host → Prop} {s s' : Host}

/-! ## Runs that end -/

/-- From any state, the program has a run to its end amid others moving the state by `R`. -/
def Finishes (R : Host → Host → Prop) (f : Act α) : Prop :=
  ∀ h, ∃ a h', Host.stage.Amid R h f a h'

theorem finishes_pure (a : α) : Finishes R (pure a : Act α) := fun h => ⟨a, h, .done⟩

theorem Finishes.bind {f : Act α} {g : α → Act β} (hf : Finishes R f) (hg : ∀ a, Finishes R (g a)) :
    Finishes R (f >>= g) := by
  intro h
  obtain ⟨a, h₁, hfirst⟩ := hf h
  obtain ⟨b, h', hrest⟩ := hg a h₁
  exact ⟨b, h', hfirst.bind hrest⟩

theorem finishes_modifyGet (F : Host → α × Host) : Finishes R (Fiber.modifyGet F) :=
  fun _ => ⟨_, _, .read (.write .done)⟩

theorem finishes_modify (g : Host → Host) : Finishes R (Fiber.modify g) :=
  fun _ => ⟨(), _, .write .done⟩

theorem finishes_look (f : Host → α) : Finishes R (look f) := fun h => ⟨_, h, .read .done⟩

/-- A loop over a list ends when each of its rounds does. -/
theorem Finishes.forIn {xs : List γ} {b : β} {f : γ → β → Act (ForInStep β)}
    (hf : ∀ x b, Finishes R (f x b)) : Finishes R (forIn xs b f) := by
  induction xs generalizing b with
  | nil => exact finishes_pure b
  | cons x xs ih =>
    rw [List.forIn_cons]
    refine (hf x b).bind fun step => ?_
    cases step with
    | done b' => exact finishes_pure b'
    | yield b' => exact ih

/-! ## Programs that sleep -/

/-- From any state, the program waits only for deadlines, never gives way, and none of its changes
moves the clock or changes what the source serves. -/
def Sleeps (f : Act α) : Prop := ∀ h, Host.stage.Sleeper Host.Steady h f

theorem sleeps_pure (a : α) : Sleeps (pure a : Act α) := fun _ => .done

theorem Sleeps.bind {f : Act α} {g : α → Act β} (hf : Sleeps f) (hg : ∀ a, Sleeps (g a)) :
    Sleeps (f >>= g) :=
  fun h => (hf h).bind fun a h' => hg a h'

theorem sleeps_look (f : Host → α) : Sleeps (look f) := fun _ => .read .done

theorem sleeps_modifyGet {F : Host → α × Host} (hF : ∀ h, Host.Steady h (F h).2) :
    Sleeps (Fiber.modifyGet F) :=
  fun h => .read (.write ⟨(hF h).clock, (hF h).serve⟩ .done)

theorem sleeps_changeCache (f : Nat → TieredCache → TieredCache) : Sleeps (changeCache f) :=
  fun _ => .write ⟨rfl, rfl⟩ .done

theorem sleeps_onCache (f : Nat → TieredCache → α × TieredCache) : Sleeps (onCache f) :=
  sleeps_modifyGet fun _ => ⟨rfl, rfl⟩

theorem sleeps_sleep (ms : Nat) : Sleeps (sleep ms) := fun _ => .read (.wait (fun _ => rfl) fun _ => .done)

/-- A query counts itself and keeps every answer of the source. -/
theorem sleeps_query : Sleeps query := by
  unfold query onSource
  exact sleeps_modifyGet fun _ => ⟨rfl, rfl⟩

theorem sleeps_callTier (call : BackendCall) : Sleeps (callTier call) := by
  have hstart : ∀ h, Host.Steady h (startCall call h).2 := by
    intro h
    unfold startCall
    split <;> exact ⟨rfl, rfl⟩
  have hend : ∀ a h, Host.Steady h (endCall a h).2 := by
    intro a h
    unfold endCall
    split <;> exact ⟨rfl, rfl⟩
  unfold callTier
  refine (sleeps_modifyGet hstart).bind fun admitted => ?_
  split
  · exact sleeps_pure _
  · -- after the breaker admits the call: a wait for the backend's delay, then the call's end
    split
    · exact (sleeps_sleep _).bind fun _ => sleeps_modifyGet (hend _)
    · exact sleeps_modifyGet (hend _)

theorem sleeps_writeThrough (key : String) (v : ByteArray) (ttlMs : Nat) :
    Sleeps (writeThrough key v ttlMs) := by
  refine (sleeps_look _).bind fun memoryOnly => ?_
  split
  · exact sleeps_pure _
  · exact (sleeps_look _).bind fun _ => Sleeps.bind (f := tierSet _ _ _)
      ((sleeps_callTier _).bind fun _ => sleeps_pure _) fun _ => sleeps_pure _

theorem sleeps_setJson_cacheAside (key : String) (v : Json) (ttlMs : Option Nat) :
    Sleeps (setJson key v ttlMs .cacheAside) := by
  unfold setJson setRaw
  refine (sleeps_look _).bind fun ttl => ?_
  refine (sleeps_changeCache _).bind fun _ => (sleeps_writeThrough _ _ _).bind fun ok => ?_
  -- once the tiers are written: the write is counted, and published if it worked
  refine (sleeps_changeCache _).bind fun _ => ?_
  split
  · exact (sleeps_changeCache _).bind fun _ => sleeps_pure _
  · exact sleeps_pure _

theorem sleeps_lookup (key : String) : Sleeps (lookup key) := by
  refine (sleeps_onCache _).bind fun found => ?_
  split
  · exact (sleeps_changeCache _).bind fun _ => sleeps_pure _
  · refine (sleeps_look _).bind fun memoryOnly => ?_
    split
    · exact sleeps_pure _
    · refine Sleeps.bind (f := tierGet key) ((sleeps_callTier _).bind fun _ => sleeps_pure _)
        fun r => ?_
      split
      · refine (sleeps_look _).bind fun decoded => ?_
        split <;> exact (sleeps_changeCache _).bind fun _ => sleeps_pure _
      · exact sleeps_pure _

theorem sleeps_getRaw (key : String) : Sleeps (getRaw key) := by
  refine (sleeps_lookup key).bind fun found => ?_
  dsimp only
  split
  · exact (sleeps_changeCache _).bind fun _ => (sleeps_changeCache _).bind fun _ => sleeps_pure _
  · exact (sleeps_changeCache _).bind fun _ => sleeps_pure _

theorem sleeps_activeUsers (now : Instant) : Sleeps (activeUsers now) := by
  unfold activeUsers
  split
  · exact sleeps_pure _
  · refine sleeps_query.bind fun answer => ?_
    split
    · exact sleeps_pure _
    · exact (sleeps_look _).bind fun _ => sleeps_pure _

theorem sleeps_warmUser (user : String) : Sleeps (warmUser user) := by
  refine sleeps_query.bind fun answer => ?_
  split
  · exact sleeps_pure _
  · refine (sleeps_look _).bind fun snapshot => ?_
    split
    · exact sleeps_pure _
    · exact (sleeps_setJson_cacheAside _ _ _).bind fun _ =>
        (sleeps_setJson_cacheAside _ _ _).bind fun _ =>
          (sleeps_setJson_cacheAside _ _ _).bind fun _ => sleeps_pure _

theorem sleeps_warmListedUser (user : String) : Sleeps (warmListedUser user) :=
  (sleeps_warmUser user).bind fun r => by split <;> exact sleeps_pure _

section Clock

-- The others may let the clock move on.
variable (htick : ∀ h t, h.clock ≤ t → R h { h with clock := t })

include htick

/-- A program that sleeps ends once the others let the clock reach its deadlines. -/
theorem Sleeps.finishes {f : Act α} (hf : Sleeps f) : Finishes R f :=
  fun h => Amid.sleeper_exists htick (fun _ _ => rfl) (hf h)

theorem finishes_warmUser (user : String) : Finishes R (warmUser user) :=
  (sleeps_warmUser user).finishes htick

end Clock

/-- What a run reaches by changes that keep what the source serves and by moves of others that keep
it too serves as where it began. -/
theorem serve_of_reach (hR : ∀ h h', R h h' → h'.source.serve = h.source.serve) {s₀ : Host}
    (h : Relation.ReflTransGen (fun a b => Host.Steady a b ∨ R a b) s₀ s) :
    s.source.serve = s₀.source.serve := by
  induction h with
  | refl => rfl
  | tail _ hstep ih =>
    rcases hstep with hstep | hstep
    · exact hstep.serve.trans ih
    · exact (hR _ _ hstep).trans ih

/-! ## One user -/

/-- The key under which one part of a user's data is warmed. -/
def userKey (user part : String) : String := "user:" ++ user ++ ":" ++ part

/-- Warming `user` from `h`, amid others moving the state by `R`: the source counts the query; a
refused snapshot ends the warm there, and a served one has the user's profile, applications and
recommendations written in that order, each cache-aside for an hour, with nothing else of the warm
between them. -/
inductive UserWarm (R : Host → Host → Prop) (user : String) : Host → Host → Prop
  | refused {h : Host} {e : CacheError} :
      h.source.serve user = .error e → UserWarm R user h h.afterQuery
  | written {h h₁ h₂ h' : Host} {snap : UserSnapshot} {b₁ b₂ b₃ : Bool} :
      h.source.serve user = .ok snap →
      Host.stage.Amid R h.afterQuery
        (setJson (userKey user "profile") snap.profile (some userTtlMs) .cacheAside) b₁ h₁ →
      Host.stage.Amid R h₁
        (setJson (userKey user "applications") (.arr snap.applications) (some userTtlMs) .cacheAside)
        b₂ h₂ →
      Host.stage.Amid R h₂ (setJson (userKey user "recommendations")
        (.arr (snap.recommendations.map .str)) (some userTtlMs) .cacheAside) b₃ h' →
      UserWarm R user h h'

/-- A query is counted, and refused when the source is set to fail. -/
theorem query_run {q : Except CacheError Unit} (h : Host.stage.Amid R s query q s') :
    q = (if s.source.failing then .error (.dataSource sourceFailure) else .ok ()) ∧
      s' = s.afterQuery := by
  unfold query onSource at h
  obtain ⟨rfl, rfl⟩ := Amid.modifyGet h
  exact ⟨rfl, rfl⟩

/-- A warm run to its end answers three keys when the source serves the user's snapshot, and the
source's refusal otherwise; it is a `UserWarm`. -/
theorem warmUser_run {user : String} {r : Except CacheError Nat}
    (h : Host.stage.Amid R s (warmUser user) r s') :
    r = (s.source.serve user).map (fun _ => 3) ∧ UserWarm R user s s' := by
  unfold warmUser at h
  obtain ⟨q, s₁, hq, hrest⟩ := Amid.of_bind h
  obtain ⟨rfl, rfl⟩ := query_run hq
  cases hfail : s.source.failing with
  | true =>
    have hserve : s.source.serve user = .error (.dataSource sourceFailure) := by
      simp [DataSource.serve, hfail]
    simp only [hfail, if_true] at hrest
    obtain ⟨rfl, rfl⟩ := Amid.done_iff.1 hrest
    exact ⟨by rw [hserve]; rfl, .refused hserve⟩
  | false =>
    simp only [hfail, Bool.false_eq_true, if_false] at hrest
    obtain ⟨found, s₂, hlook, hrest⟩ := Amid.of_bind hrest
    obtain ⟨rfl, rfl⟩ := Amid.read_done hlook
    -- the snapshot is looked up in the source the query left, which knows the same users
    have hfound : s.afterQuery.source.userSnapshot user = s.source.userSnapshot user := rfl
    rw [hfound] at hrest
    cases hsnap : s.source.userSnapshot user with
    | error msg =>
      have hserve : s.source.serve user = .error (.dataSource msg) := by
        rw [DataSource.serve, hfail, hsnap]
        rfl
      rw [hsnap] at hrest
      obtain ⟨rfl, rfl⟩ := Amid.done_iff.1 hrest
      exact ⟨by rw [hserve]; rfl, .refused hserve⟩
    | ok snap =>
      have hserve : s.source.serve user = .ok snap := by
        rw [DataSource.serve, hfail, hsnap]
        rfl
      rw [hsnap] at hrest
      obtain ⟨b₁, s₃, hprofile, hrest⟩ := Amid.of_bind hrest
      obtain ⟨b₂, s₄, happs, hrest⟩ := Amid.of_bind hrest
      obtain ⟨b₃, s₅, hrecs, hrest⟩ := Amid.of_bind hrest
      obtain ⟨rfl, rfl⟩ := Amid.done_iff.1 hrest
      exact ⟨by rw [hserve]; rfl, .written hserve hprofile happs hrecs⟩

/-- A warm of a listed user answers three keys when the source serves the user's snapshot and none
otherwise; it is a `UserWarm`. -/
theorem warmListedUser_run {user : String} {n : Nat}
    (h : Host.stage.Amid R s (warmListedUser user) n s') :
    n = (if (s.source.serve user).toBool then 3 else 0) ∧ UserWarm R user s s' := by
  unfold warmListedUser at h
  obtain ⟨w, s₁, hw, hrest⟩ := Amid.of_bind h
  obtain ⟨hn, huser⟩ := warmUser_run hw
  -- the warm's answer is three keys exactly when the source served the snapshot
  cases w with
  | ok m =>
    obtain ⟨rfl, rfl⟩ := Amid.done_iff.1 hrest
    cases hs : s.source.serve user with
    | error e => simp [hs, Except.map] at hn
    | ok snap =>
      simp only [hs, Except.map, Except.ok.injEq] at hn
      exact ⟨by simp [hn, Except.toBool], huser⟩
  | error e =>
    obtain ⟨rfl, rfl⟩ := Amid.done_iff.1 hrest
    cases hs : s.source.serve user with
    | error e' => exact ⟨by simp [Except.toBool], huser⟩
    | ok snap => simp [hs, Except.map] at hn

/-! ## Users one after another -/

/-- Users warmed one after another from `h`, amid others: `served` lists, in order and with
repeats, the users whose snapshot the source served at their turn. -/
inductive UsersWarm (R : Host → Host → Prop) : Host → List String → List String → Host → Prop
  | nil {h : Host} : UsersWarm R h [] [] h
  | refused {h h₁ h' : Host} {u : String} {us served : List String} {e : CacheError} :
      h.source.serve u = .error e → UserWarm R u h h₁ → UsersWarm R h₁ us served h' →
      UsersWarm R h (u :: us) served h'
  | served {h h₁ h' : Host} {u : String} {us served : List String} {snap : UserSnapshot} :
      h.source.serve u = .ok snap → UserWarm R u h h₁ → UsersWarm R h₁ us served h' →
      UsersWarm R h (u :: us) (u :: served) h'

/-- The users served are some of the users warmed, in their order. -/
theorem UsersWarm.sublist {us served : List String} (h : UsersWarm R s us served s') :
    served.Sublist us := by
  induction h with
  | nil => exact .slnil
  | refused _ _ _ ih => exact ih.cons _
  | served _ _ _ ih => exact ih.cons_cons _

/-- A loop whose every round warms its user, adding `k` when the user is served, runs its users
through `UsersWarm` and adds `k` for each user served. -/
theorem Rounds.usersWarm {k : Nat} {body : String → Nat → Act (ForInStep Nat)}
    (hbody : ∀ u b h r h', Host.stage.Amid R h (body u b) r h' →
      ∃ w, Host.stage.Amid R h (warmUser u) w h' ∧ r = .yield (if w.toBool then b + k else b))
    {us : List String} {b b' : Nat} (hr : Host.stage.Rounds R body s us b b' s') :
    ∃ served, UsersWarm R s us served s' ∧ b' = b + k * served.length := by
  induction hr with
  | nil => exact ⟨[], .nil, by simp⟩
  | stop hround =>
    obtain ⟨w, -, hstep⟩ := hbody _ _ _ _ _ hround
    cases hstep
  | @next h u us b b₁ b' h₁ h' hround _ ih =>
    obtain ⟨w, hwarm, hstep⟩ := hbody _ _ _ _ _ hround
    obtain ⟨rfl, huser⟩ := warmUser_run hwarm
    injection hstep with hb₁
    subst hb₁
    obtain ⟨served, hrest, rfl⟩ := ih
    -- the round adds `k` exactly when the source serves the user
    cases hserve : h.source.serve u with
    | error e => exact ⟨served, .refused hserve huser hrest, by simp [Except.map, Except.toBool]⟩
    | ok snap =>
      refine ⟨u :: served, .served hserve huser hrest, ?_⟩
      simp only [Except.map, Except.toBool, if_true, List.length_cons]
      ring

/-! ## Users several at a time -/

/-- The users `us` warmed several at a time amid others, against a source that serves as `serve`
does: each entry of `us` has a warm of its user, run to its end amid anything from a state whose
source serves so, and `n` counts three keys for each entry that `serve` serves. -/
structure UsersWarmed (serve : String → Except CacheError UserSnapshot) (us : List String) (n : Nat) :
    Prop where
  warmed : ∀ u ∈ us, ∃ h h', h.source.serve = serve ∧ UserWarm (fun _ _ => True) u h h'
  count : n = 3 * (us.filter fun u => (serve u).toBool).length

/-- Answers of three keys for each user served, added up in any order. -/
theorem foldl_add_warms {p : String → Bool} (runs : List (String × Nat)) (a : Nat)
    (hruns : ∀ x ∈ runs, x.2 = if p x.1 then 3 else 0) :
    runs.foldl (fun a x => a + x.2) a = a + 3 * ((runs.map Prod.fst).filter p).length := by
  induction runs generalizing a with
  | nil => rfl
  | cons x runs ih =>
    rw [List.foldl_cons, ih _ fun y hy => hruns y (List.mem_cons_of_mem _ hy), hruns x List.mem_cons_self]
    by_cases hp : p x.1
    · simp [hp]
      omega
    · simp [hp]

/-- Every run to its end of the users' warms, eight at a time, amid others that keep what the
source serves, is a `UsersWarmed` against the source it started with. -/
theorem usersWarmed_of_buffered (hR : ∀ h h', R h h' → h'.source.serve = h.source.serve)
    {us : List String} {n : Nat}
    (h : Host.stage.Amid R s (Fiber.buffered profileConcurrency warmListedUser (· + ·) (·.clock) us 0)
      n s') :
    UsersWarmed s.source.serve us n := by
  obtain ⟨runs, hperm, rfl, hran⟩ :=
    Amid.of_buffered (K := Host.Steady) (fun _ _ hK => hK.clock.ge) (fun u _ h => sleeps_warmListedUser u h) h
  -- each warm began where the source served as at the start
  have hwarm : ∀ x ∈ runs, ∃ h h', h.source.serve = s.source.serve ∧
      Host.stage.Amid (fun _ _ => True) h (warmListedUser x.1) x.2 h' := by
    intro x hx
    obtain ⟨h₁, h₂, hreach, hrun⟩ := hran x hx
    exact ⟨h₁, h₂, serve_of_reach hR hreach, hrun⟩
  have hcount : ∀ x ∈ runs, x.2 = if (s.source.serve x.1).toBool then 3 else 0 := by
    intro x hx
    obtain ⟨h₁, h₂, hserve, hrun⟩ := hwarm x hx
    rw [← hserve]
    exact (warmListedUser_run hrun).1
  refine ⟨fun u hu => ?_, ?_⟩
  · obtain ⟨x, hx, rfl⟩ := List.mem_map.1 (hperm.mem_iff.2 hu)
    obtain ⟨h₁, h₂, hserve, hrun⟩ := hwarm x hx
    exact ⟨h₁, h₂, hserve, (warmListedUser_run hrun).2⟩
  · rw [foldl_add_warms (p := fun u => (s.source.serve u).toBool) runs 0 hcount, Nat.zero_add,
      (hperm.filter _).length_eq]

/-! ## The profiles rule -/

/-- Asking for the users active since `since`, the start of the hour before `now`: one query, and
those users, most recent first, unless the source refuses. -/
theorem activeUsers_run {now since : Instant} (hsince : now.back AccessTracker.lookbackSecs = .ok since)
    {a : Option (Except CacheError (List Activity))} (h : Host.stage.Amid R s (activeUsers now) a s') :
    a = some (if s.source.failing then .error (.dataSource sourceFailure)
      else .ok (s.source.recentlyActive since)) ∧ s' = s.afterQuery := by
  unfold activeUsers at h
  rw [hsince] at h
  obtain ⟨q, s₁, hq, hrest⟩ := Amid.of_bind h
  obtain ⟨rfl, rfl⟩ := query_run hq
  cases hfail : s.source.failing with
  | true =>
    simp only [hfail, if_true] at hrest
    obtain ⟨rfl, rfl⟩ := Amid.done_iff.1 hrest
    exact ⟨rfl, rfl⟩
  | false =>
    simp only [hfail, Bool.false_eq_true, if_false] at hrest
    obtain ⟨found, s₂, hlook, hrest⟩ := Amid.of_bind hrest
    obtain ⟨rfl, rfl⟩ := Amid.read_done hlook
    obtain ⟨rfl, rfl⟩ := Amid.done_iff.1 hrest
    exact ⟨rfl, rfl⟩

/-- A rule found eligible at `now` that asks for active users has the hour before `now` in the
calendar. The stock profiles rule asks for them, so every dispatch of it that starts a job does. -/
theorem eligible_within_lookback {r : Rule} {now : Instant} {n : Nat}
    (hc : .activeUsers n ∈ r.conditions) (hrun : Host.stage.Amid R s (eligibility r now) .eligible s') :
    ∃ since, now.back AccessTracker.lookbackSecs = .ok since := by
  obtain ⟨m, s₁, -, hgated⟩ := eligibility_gated hrun
  cases hgated with
  | eligible _ hfirst _ _ => exact hfirst.lookback_of_activeUsers rfl hc

/-- How the profiles rule runs from `h`, once it has read `found` under the active list's key,
`since` being the start of the hour before the dispatch. When `found` reads as a list of texts, it
warms the users of that list; otherwise it asks the source for the users active since then and
warms them, or fails when the source refuses, leaving the host as the query left it. It reports
three keys for each entry of the list that the source serves. -/
inductive ProfilesRun (since : Instant) : Option ByteArray → Host → RunOutcome → Host → Prop
  | cached {v : ByteArray} {h h' : Host} {us : List String} {n : Nat} :
      Shape.strings.read v = .ok (.arr (us.map .str)) → UsersWarmed h.source.serve us n →
      ProfilesRun since (some v) h (.warmed n) h'
  | refused {found : Option ByteArray} {h : Host} :
      (∀ v, found = some v → ∀ xs, Shape.strings.read v ≠ .ok (.arr xs)) →
      h.source.failing = true →
      ProfilesRun since found h (.failed (.dataSource sourceFailure)) (h.unlisted found).afterQuery
  | listed {found : Option ByteArray} {h h' : Host} {n : Nat} :
      (∀ v, found = some v → ∀ xs, Shape.strings.read v ≠ .ok (.arr xs)) →
      h.source.failing = false →
      UsersWarmed h.source.serve ((h.source.recentlyActive since).map (·.userId)) n →
      ProfilesRun since found h (.warmed n) h'

theorem finishes_runRule_profiles (htick : ∀ h t, h.clock ≤ t → R h { h with clock := t })
    {r : Rule} {now : Instant} {trigger : Option String} (hr : r.refresh = .activeProfiles) :
    Finishes R (runRule r now trigger) := by
  unfold runRule
  rw [hr]
  refine ((sleeps_getRaw _).finishes htick).bind fun cached => ?_
  extract_lets +lift withUsers withListed
  -- the cached list of users, else the source's, then the users warmed eight at a time
  have hUsers : ∀ users, Finishes R (withUsers users) := by
    intro users
    simp only [withUsers]
    split
    · exact finishes_pure _
    · exact finishes_pure _
    · refine Finishes.bind (fun h => ?_) fun _ => finishes_pure _
      exact Amid.buffered_exists htick (fun _ _ => rfl) (fun u _ h => sleeps_warmListedUser u h) h
  have hListed : ∀ listed, Finishes R (withListed listed) := by
    intro listed
    simp only [withListed]
    split
    · exact (finishes_pure _).bind fun _ => hUsers _
    · refine ((sleeps_activeUsers _).finishes htick).bind fun found => ?_
      split <;> exact (finishes_pure _).bind fun _ => hUsers _
  split
  · exact (finishes_pure _).bind fun _ => hListed _
  · split
    · exact (finishes_pure _).bind fun _ => hListed _
    · exact (finishes_modify _).bind fun _ => (finishes_pure _).bind fun _ => hListed _

/-- The profiles rule, dispatched at `now` with the hour before it in the calendar, ends whenever the
others let the clock move, and, amid others that keep what the source serves, every run of it reads
the cached active list and then goes as `ProfilesRun` says: it warms the users of the cached list
when the value there reads as a list of texts, and otherwise the users the source reports active in
that hour, failing only when the source refuses that query. The users are warmed eight at a time,
whether or not the others are served and whatever order their warms end in; each entry of the list
is warmed, and the rule reports three keys for each entry the source serves. -/
theorem profiles_rule_warms_served_users {r : Rule} {now since : Instant} {trigger : Option String}
    (hr : r.refresh = .activeProfiles) (hsince : now.back AccessTracker.lookbackSecs = .ok since)
    (htick : ∀ h t, h.clock ≤ t → R h { h with clock := t })
    (hR : ∀ h h', R h h' → h'.source.serve = h.source.serve) (h₀ : Host) :
    (∃ o h', Host.stage.Amid R h₀ (runRule r now trigger) o h') ∧
      ∀ o h', Host.stage.Amid R h₀ (runRule r now trigger) o h' →
        ∃ found h₁, Host.stage.Amid R h₀ (getRaw activeUsersKey) found h₁ ∧
          ProfilesRun since found h₁ o h' := by
  refine ⟨finishes_runRule_profiles htick hr h₀, fun o h' hrun => ?_⟩
  unfold runRule at hrun
  rw [hr] at hrun
  obtain ⟨found, h₁, hget, hrest⟩ := Amid.of_bind hrun
  refine ⟨found, h₁, hget, ?_⟩
  extract_lets withUsers withListed at hrest
  -- once the list is known, its users are warmed against the source as it then serves
  have hwarm : ∀ us h o h', Host.stage.Amid R h (withUsers (some (.ok us))) o h' →
      ∃ n, UsersWarmed h.source.serve us n ∧ o = .warmed n := by
    intro us h o h' hrun
    obtain ⟨n, h₂, hbuf, hdone⟩ := Amid.of_bind hrun
    obtain ⟨rfl, rfl⟩ := Amid.done_iff.1 hdone
    exact ⟨n, usersWarmed_of_buffered hR hbuf, rfl⟩
  -- with no list cached, the source is asked for the users active in the hour
  have hsource : ∀ o h', Host.stage.Amid R (h₁.unlisted found) (withListed none) o h' →
      (∀ v, found = some v → ∀ xs, Shape.strings.read v ≠ .ok (.arr xs)) →
      ProfilesRun since found h₁ o h' := by
    intro o h' hrun hunlisted
    obtain ⟨a, h₂, hask, hrest⟩ := Amid.of_bind hrun
    obtain ⟨rfl, rfl⟩ := activeUsers_run hsince hask
    rw [Host.unlisted_source] at hrest
    cases hfail : h₁.source.failing with
    | true =>
      simp only [hfail, if_true] at hrest
      obtain ⟨rfl, rfl⟩ := Amid.done_iff.1 hrest
      exact .refused hunlisted hfail
    | false =>
      simp only [hfail, Bool.false_eq_true, if_false] at hrest
      obtain ⟨n, hs, rfl⟩ := hwarm _ _ _ _ hrest
      have hserve : (h₁.unlisted found).afterQuery.source.serve = h₁.source.serve := by
        rw [← Host.unlisted_source found h₁]
        rfl
      exact .listed hunlisted hfail (hserve ▸ hs)
  cases found with
  | none => exact hsource o h' hrest (fun _ h => by cases h)
  | some v =>
    dsimp only at hrest
    split at hrest
    · next xs hxs =>
      obtain ⟨n, hs, rfl⟩ := hwarm _ _ _ _ hrest
      refine .cached ?_ hs
      -- the texts taken out of the list are the list itself
      convert hxs using 3
      exact map_str_filterMap (fun _ => rfl) (Shape.read_strings_str hxs)
    · next hnot =>
      obtain hrest := Amid.modify_bind hrest
      exact hsource o h' hrest fun w hw xs hxs => hnot xs (by cases hw; exact hxs)

/-- The start of the hour before the instant every background loop sees. -/
def wallClockHourAgo : Instant := ⟨wallClock.nanos - 3600 * Instant.nanosPerSecond⟩

theorem wallClock_back_lookback : wallClock.back AccessTracker.lookbackSecs = .ok wallClockHourAgo := by
  decide

/-- The stock profiles rule, dispatched at the loops' instant on a memory-only host, amid others
that leave the source alone. -/
theorem stock_profiles_rule_warms_served_users :
    (standardRules.get ⟨2, by decide⟩).refresh = .activeProfiles ∧
      wallClock.back AccessTracker.lookbackSecs = .ok wallClockHourAgo ∧
      (∀ h t, h.clock ≤ t → (fun h h' : Host => h'.source = h.source) h { h with clock := t }) ∧
      (∀ h h' : Host, h'.source = h.source → h'.source.serve = h.source.serve) ∧
      (∃ o h', Host.stage.Amid (fun h h' => h'.source = h.source) memoryOnlyHost
        (runRule (standardRules.get ⟨2, by decide⟩) wallClock none) o h') ∧
      ∀ o h', Host.stage.Amid (fun h h' => h'.source = h.source) memoryOnlyHost
          (runRule (standardRules.get ⟨2, by decide⟩) wallClock none) o h' →
        ∃ found h₁, Host.stage.Amid (fun h h' => h'.source = h.source) memoryOnlyHost
            (getRaw activeUsersKey) found h₁ ∧
          ProfilesRun wallClockHourAgo found h₁ o h' :=
  ⟨rfl, wallClock_back_lookback, fun _ _ _ => rfl, fun _ _ h => congrArg DataSource.serve h,
    profiles_rule_warms_served_users rfl wallClock_back_lookback (fun _ _ _ => rfl)
      (fun _ _ h => congrArg DataSource.serve h) memoryOnlyHost⟩

end Act

end TierCache
