import TierCache.Service.Lifecycle
import TierCache.Proofs.BufferedRuns

/-!
# What leaves the warming books alone

A quiet program changes neither the books nor the jobs asked for (`Act.Quiet`).
-/

namespace TierCache

namespace Warmer

/-- The part of the scheduler its claims, permits and jobs are kept in. -/
structure Books where
  inFlight : List String
  permits : Nat
  active : Nat
  running : List Nat
  undrained : List Nat
  nextJob : Nat
  /-- The permits in all. -/
  limit : Nat

def books (w : Warmer) : Books :=
  ⟨w.inFlight, w.permits, w.counters.active, w.running, w.undrained, w.nextJob,
    max w.settings.maxConcurrentWarms 1⟩

@[simp] theorem books_count (w : Warmer) (f : WarmingCounters → WarmingCounters) :
    (w.count f).books = w.books ↔ (f w.counters).active = w.counters.active := by
  simp [books, count]

@[simp] theorem books_countCall (w : Warmer) (pattern : String) :
    (w.countCall pattern).books = w.books := rfl

end Warmer

theorem WarmingCounters.recordRun_active (c : WarmingCounters) (items : Option Nat) (micros : Nat) :
    (c.recordRun items micros).active = c.active := by
  cases items <;> rfl

namespace Host

/-- A change that leaves the warming books and the jobs asked for as they were. -/
def Calm (h h' : Host) : Prop :=
  h'.requested = h.requested ∧ h'.warmer.map Warmer.books = h.warmer.map Warmer.books

theorem Calm.of_eq {h h' : Host} (hreq : h'.requested = h.requested) (hw : h'.warmer = h.warmer) :
    Calm h h' :=
  ⟨hreq, by rw [hw]⟩

end Host

namespace Act

variable {α β γ : Type}

/-- From any state, every change the program makes is calm. -/
def Quiet (f : Act α) : Prop := ∀ h, Stage.Within Host.stage Host.Calm h f

theorem Quiet.bind {f : Act α} {g : α → Act β} (hf : Quiet f) (hg : ∀ a, Quiet (g a)) :
    Quiet (f >>= g) :=
  fun h => (hf h).bind fun a h' => hg a h'

theorem Quiet.read {k : Host → Act α} (hk : ∀ h, Quiet (k h)) : Quiet (.read k) :=
  fun h => .read (hk h h)

theorem Quiet.wait {d : Option Nat} {r : Host → Bool} {k : Act α} (hk : Quiet k) :
    Quiet (.wait d r k) :=
  fun _ => .wait hk

theorem Quiet.forIn {xs : List γ} {b : β} {f : γ → β → Act (ForInStep β)}
    (hf : ∀ x b, Quiet (f x b)) : Quiet (forIn xs b f) :=
  Stage.Within.forIn fun x _ b => hf x b

theorem Quiet.buffered {δ : Type} {limit : Nat} {start : β → Act γ} {fold : δ → γ → δ}
    {clock : Host → Nat} {items : List β} {init : δ} (hstart : ∀ b, Quiet (start b)) :
    Quiet (Fiber.buffered limit start fold clock items init) :=
  Stage.Within.buffered fun b _ => hstart b

end Act

end TierCache
