/-!
# Fibers: programs that share a state and take turns

A fiber is a program over a shared state `σ`. It can read the state, change it, wait until the
clock reaches a deadline or the state meets a condition, and give way to the other fibers. A
fiber is data: whoever runs it (`Stage.run` in `Tasks.Pool`) decides when each step happens, so
the same program can be run, inspected and reasoned about without any scheduler.

Fibers form a monad: `bind` grafts the rest of a program onto every place where the first part
ends. The laws hold by induction on the first part (`bind_done`, `bind_assoc`).
-/

namespace TierCache

/-- A program over a shared state `σ` that ends with a value of type `α`. -/
inductive Fiber (σ α : Type) where
  /-- The program has ended with a value. -/
  | done (a : α)
  /-- Reads the state and goes on according to it. -/
  | read (k : σ → Fiber σ α)
  /-- Changes the state, then goes on. -/
  | write (f : σ → σ) (k : Fiber σ α)
  /-- Waits until the clock reaches the deadline, if there is one, or the state meets `ready`,
  whichever comes first; goes on at once when either already holds. -/
  | wait (deadline : Option Nat) (ready : σ → Bool) (k : Fiber σ α)
  /-- Lets the other fibers that can run do so, then goes on. -/
  | pass (k : Fiber σ α)

namespace Fiber

variable {σ α β γ : Type}

/-- The program that runs `f`, then `g` on its value. -/
protected def bind : Fiber σ α → (α → Fiber σ β) → Fiber σ β
  | done a, g => g a
  | read k, g => read fun s => (k s).bind g
  | write f k, g => write f (k.bind g)
  | wait d r k, g => wait d r (k.bind g)
  | pass k, g => pass (k.bind g)

instance : Monad (Fiber σ) where
  pure := done
  bind := Fiber.bind

@[simp] theorem done_bind (a : α) (g : α → Fiber σ β) : (done a).bind g = g a := rfl

@[simp] theorem bind_done (f : Fiber σ α) : f.bind done = f := by
  induction f with
  | done a => rfl
  | read k ih => exact congrArg read (funext ih)
  | write f k ih => exact congrArg (write f) ih
  | wait d r k ih => exact congrArg (wait d r) ih
  | pass k ih => exact congrArg pass ih

theorem bind_assoc (f : Fiber σ α) (g : α → Fiber σ β) (h : β → Fiber σ γ) :
    (f.bind g).bind h = f.bind fun a => (g a).bind h := by
  induction f with
  | done a => rfl
  | read k ih => exact congrArg read (funext ih)
  | write f k ih => exact congrArg (write f) ih
  | wait d r k ih => exact congrArg (wait d r) ih
  | pass k ih => exact congrArg pass ih

/-- The state. -/
def get : Fiber σ σ := read done

/-- Changes the state. -/
def modify (f : σ → σ) : Fiber σ Unit := write f (done ())

/-- Changes the state and answers a value computed with the change, in one step. -/
def modifyGet (f : σ → α × σ) : Fiber σ α :=
  read fun s => let (a, s') := f s; write (fun _ => s') (done a)

/-- Waits until the clock reads `t`. -/
def sleepUntil (t : Nat) : Fiber σ Unit := wait (some t) (fun _ => false) (done ())

/-- Waits until the state meets `p`. -/
def waitUntil (p : σ → Bool) : Fiber σ Unit := wait none p (done ())

/-- Lets the other fibers that can run do so. -/
def giveWay : Fiber σ Unit := pass (done ())

/-- Runs `body` on a carried value again and again while it says to go on, at most `rounds`
times, and answers the last value. Each round starts by reading the state, so a round is built
only when it is reached. -/
def loop (body : β → Fiber σ (β × Bool)) : Nat → β → Fiber σ β
  | 0, b => done b
  | rounds + 1, b => read fun _ => (body b).bind fun
    | (b, true) => loop body rounds b
    | (b, false) => done b

/-- The deadline a fiber waits for, if its next step is a wait with one. -/
def deadline? : Fiber σ α → Option Nat
  | wait d _ _ => d
  | _ => none

/-- Whether a fiber's next step is a wait on a condition that holds in `s`. -/
def woken (s : σ) : Fiber σ α → Bool
  | wait _ r _ => r s
  | _ => false

end Fiber

end TierCache
