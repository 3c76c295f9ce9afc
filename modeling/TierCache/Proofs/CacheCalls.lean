import Mathlib
import TierCache.Proofs.WarmingBooks
import TierCache.Service.Lifecycle

/-!
# Callers of the cache

A caller makes its calls one after the other and logs each with its times and answer
(`CacheCall.program`).

Main statement: `CacheCall.runs_program`.
-/

namespace TierCache

/-- A call a caller makes on the cache. -/
inductive CacheCall where
  | get (key : String)
  | contains (key : String)
  | set (key : String) (value : ByteArray) (ttlMs : Option Nat) (strategy : WriteStrategy)
  | delete (key : String)
  | invalidate (pattern : String)
  | sweep
  | clearLocal
  | flush
  deriving DecidableEq

/-- What a call answered. -/
inductive CallAnswer where
  | found (value : Option ByteArray)
  | flag (b : Bool)
  | count (n : Nat)
  | done
  deriving DecidableEq

/-- One line of a caller's log: the call, the clock when it began, its answer, and the clock when
it returned. -/
structure CallRecord where
  call : CacheCall
  start : Nat
  answer : CallAnswer
  stop : Nat
  deriving DecidableEq

/-! ## One call to the distributed tier -/

namespace Act

/-- Starts a call to the distributed tier at the clock's time: the breaker's verdict, and the
backend's count. -/
def startCall (call : BackendCall) (h : Host) : Option DistributedTier.Admitted × Host :=
  match h.cache.distributed with
  | none => (none, h)
  | some d =>
    let (d, a) := d.start call h.clock
    (a, { h with cache := { h.cache with distributed := some d } })

/-- Ends an admitted call at the clock's time. -/
def endCall (a : DistributedTier.Admitted) (h : Host) : Except CacheError BackendReply × Host :=
  match h.cache.distributed with
  | none => (.error .circuitOpen, h)
  | some d =>
    let (d, metrics, r) := d.complete h.cache.metrics a h.clock
    (r, { h with cache := { h.cache with distributed := some d, metrics } })

-- A call the breaker admits is the call that was made.
theorem start_call {d : DistributedTier} {c : BackendCall} {now : Nat}
    {a : DistributedTier.Admitted} (ha : (d.start c now).2 = some a) : a.call = c := by
  unfold DistributedTier.start at ha
  cases hp : d.breaker.permits now with
  | mk admitted breaker =>
    rw [hp] at ha
    cases admitted with
    | false => cases ha
    | true =>
      simp only [Bool.not_true, Bool.false_eq_true, if_false, Option.some.injEq] at ha
      rw [← ha]

theorem startCall_call {call : BackendCall} {h : Host} {a : DistributedTier.Admitted}
    (ha : (startCall call h).1 = some a) : a.call = call := by
  unfold startCall at ha
  cases hd : h.cache.distributed with
  | none => simp [hd] at ha
  | some d =>
    simp only [hd] at ha
    exact start_call ha

variable {ω : Type} {L : Sharing Host Job ω}

/-- A call to the distributed tier, started where the invariant holds, runs safely when its start
keeps the invariant, moving the caller's share from `o` to `o₁`, a refusal ends well, and its end,
for the call the start admitted and wherever the invariant holds, keeps the invariant and ends
well. -/
theorem runs_callTier {o o₁ : ω} {Q : Except CacheError BackendReply → ω → Host → Prop}
    {call : BackendCall} {s : Host} {M : Multiset ω} (hI : L.Inv s (o ::ₘ M))
    (hstart : Stage.Keeps Host.stage L o (fun _ => (startCall call s).2) s o₁)
    (hrefused : (startCall call s).1 = none → ∀ h M, L.Inv h (o₁ ::ₘ M) →
      Q (.error .circuitOpen) o₁ h)
    (hend : ∀ a, (startCall call s).1 = some a → ∀ h M, L.Inv h (o₁ ::ₘ M) →
      ∃ o', Stage.Keeps Host.stage L o₁ (fun _ => (endCall a h).2) h o' ∧
        Q (endCall a h).1 o' (Host.stage.takeJobs (endCall a h).2).2) :
    Stage.Runs Host.stage L Q o s (callTier call) := by
  -- the start asks for no job, so the invariant holds after it with the same other shares
  have hfirst : Stage.Runs Host.stage L (fun admitted o' s' => o' = o₁ ∧
      admitted = (startCall call s).1 ∧ ∃ M, L.Inv s' (o₁ ::ₘ M))
      o s (Fiber.modifyGet (startCall call)) :=
    Stage.Runs.modifyGet hstart ⟨rfl, rfl, _, (hstart M hI).2⟩
  unfold callTier
  refine hfirst.bind fun admitted o' s₁ ⟨ho', hadmitted, M₁, hI₁⟩ => ?_
  subst o'
  cases admitted with
  | none => exact .done (hrefused hadmitted.symm _ _ hI₁)
  | some a =>
    -- the caller waits; the others may move the state, and the call ends wherever they left it
    have hfinish : ∀ s' M, L.Inv s' (o₁ ::ₘ M) →
        Stage.Runs Host.stage L Q o₁ s' (Fiber.modifyGet (endCall a)) := by
      intro s' M hI'
      obtain ⟨o', hk, hq⟩ := hend a hadmitted.symm s' M hI'
      exact Stage.Runs.modifyGet hk hq
    dsimp only
    split
    · exact .read (.wait (fun _ => o₁) (fun _ _ hI _ => hI) fun s' M hI' _ => hfinish s' M hI')
    · exact hfinish _ _ hI₁

end Act

namespace CacheCall

/-- The cache operation a call makes. -/
def act : CacheCall → Act CallAnswer
  | get key => return .found (← Act.getRaw key)
  | contains key => return .flag (← Act.contains key)
  | set key value ttlMs strategy => return .flag (← Act.setRaw key value ttlMs strategy)
  | delete key => return .flag (← Act.delete key)
  | invalidate pattern => return .count (← Act.invalidate pattern)
  | sweep => return .count (← Act.sweep)
  | clearLocal => do Act.clearLocal; return .done
  | flush => do Act.flush; return .done

/-- A caller makes its calls one after the other, gives way before each, and logs each. -/
def program : List CacheCall → Act (List CallRecord)
  | [] => pure []
  | c :: cs => do
    Fiber.giveWay
    let start ← Act.now
    let answer ← c.act
    let stop ← Act.now
    let rest ← program cs
    return ⟨c, start, answer, stop⟩ :: rest

/-- Each call of a list, made after the calls `past`, is one that `Allowed` admits after the
calls before it. -/
def Obeys (Allowed : List CacheCall → CacheCall → Prop) : List CacheCall → List CacheCall → Prop
  | _, [] => True
  | past, c :: cs => Allowed past c ∧ Obeys Allowed (past ++ [c]) cs

-- A discipline that allows every call is obeyed by every list of calls.
theorem obeys_of_forall {Allowed : List CacheCall → CacheCall → Prop}
    (hall : ∀ past c, Allowed past c) : ∀ past cs, Obeys Allowed past cs
  | _, [] => trivial
  | past, c :: cs => ⟨hall past c, obeys_of_forall hall (past ++ [c]) cs⟩

variable {ω : Type} {L : Sharing Host Job ω}

/-- A caller runs safely from a share that accounts for its log so far, when each call it may make
runs safely from such a share, wherever the invariant allows it to start, to one that accounts
for the log with that call added. -/
theorem runs_program (Accounts : List CallRecord → ω → Prop)
    (Allowed : List CacheCall → CacheCall → Prop)
    (hcall : ∀ D o c, Accounts D o → Allowed (D.map (·.call)) c → ∀ s M, L.Inv s (o ::ₘ M) →
      Stage.Runs Host.stage L (fun a o' s' => Accounts (D ++ [⟨c, s.clock, a, s'.clock⟩]) o') o s
        c.act) :
    ∀ (cs : List CacheCall) (D : List CallRecord) (o : ω), Accounts D o →
      Obeys Allowed (D.map (·.call)) cs → ∀ s,
        Stage.Runs Host.stage L (fun log o' _ => Accounts (D ++ log) o') o s (program cs)
  | [], D, o, hD, _, _ => .done (by simpa using hD)
  | c :: cs, D, o, hD, ⟨hc, hcs⟩, _ => by
    -- after giving way, the call starts from whatever state the others left
    refine .pass fun s M hI => .read ?_
    refine (hcall D o c hD hc s M hI).bind fun a o' s' hD' => .read ?_
    have hpast : (D ++ [(⟨c, s.clock, a, s'.clock⟩ : CallRecord)]).map (·.call) =
        D.map (·.call) ++ [c] := by simp
    refine (runs_program Accounts Allowed hcall cs _ o' hD' (hpast ▸ hcs) s').bind
      fun rest o'' _ hD'' => .done ?_
    simpa using hD''

end CacheCall

end TierCache
