import TierCache.Tasks.Fiber
/-!
# Running fibers together

A pool holds the fibers that run beside a main flow: those ready to run, first come first served,
and those waiting on a deadline or a condition, in the order they started waiting. Fibers take
turns on one thread: a fiber runs until it waits, gives way or ends, and nothing interrupts it.

- After every change a fiber makes to the state, the jobs the state asks to start join the ready
  queue, then the waiting fibers whose condition now holds, in the order they started waiting.
- The main flow runs first. When it waits, the ready fibers take their turns until none is left,
  and the main flow goes on as soon as it can and no fiber is ready.
- When nothing can run, the clock jumps to the earliest deadline. Every fiber whose deadline has
  come becomes ready, earliest deadline first and in waiting order on ties; a main flow whose
  deadline has come goes on before all of them.
- When the main flow gives way, every ready fiber takes its turn; then the fibers whose deadline
  has passed become ready, and the main flow goes on before them.

The state owns the clock and the list of jobs asked for; a `Stage` says how to reach them, so the
pool works for any state.
-/

namespace TierCache

/-- How a pool reaches into the state its fibers share. -/
structure Stage (σ τ : Type) where
  /-- The clock, in milliseconds. -/
  clock : σ → Nat
  setClock : σ → Nat → σ
  /-- Takes the jobs the state asks to start, in the order asked. -/
  takeJobs : σ → List τ × σ
  /-- The fiber that does a job. -/
  launch : τ → Fiber σ Unit
  /-- Whether the state has stopped every fiber. -/
  halted : σ → Bool

/-- Fibers beside the main flow. -/
structure Pool (σ : Type) where
  /-- Fibers ready to run, the first to run first. -/
  ready : List (Fiber σ Unit) := []
  /-- Fibers waiting, in the order they started waiting. -/
  waiting : List (Fiber σ Unit) := []

/-- How driving a main flow ended. -/
inductive Ending (σ α : Type) where
  /-- The main flow ended with a value. -/
  | ended (a : α) (s : σ) (p : Pool σ)
  /-- The state stopped every fiber. -/
  | halted (s : σ)
  /-- Nothing could move any more, or the turns allowed ran out. -/
  | stuck (s : σ)

namespace Pool

variable {σ : Type}

/-- Files a fiber after its turn: an ended one leaves, one that waits joins the waiting fibers,
and any other queues again. -/
def file (p : Pool σ) : Fiber σ Unit → Pool σ
  | .done _ => p
  | .wait d r k => { p with waiting := p.waiting ++ [.wait d r k] }
  | f => { p with ready := p.ready ++ [f] }

/-- Makes ready every waiting fiber whose deadline is at or before `now`: the earliest deadline
first, and in waiting order among equal deadlines. -/
def expire (now : Nat) (p : Pool σ) : Pool σ :=
  let (due, still) := p.waiting.partition fun f => f.deadline?.any (· ≤ now)
  let due := due.mergeSort fun a b => a.deadline?.getD 0 ≤ b.deadline?.getD 0
  { ready := p.ready ++ due, waiting := still }

/-- The earliest deadline among the waiting fibers. -/
def nextDeadline (p : Pool σ) : Option Nat :=
  p.waiting.foldl (fun acc f => match f.deadline?, acc with
    | some d, some e => some (min d e)
    | some d, none => some d
    | none, e => e) none

end Pool

namespace Stage

variable {σ τ α : Type}

/-- Starts the jobs the state asks for and wakes the waiting fibers whose condition holds. -/
def settle (st : Stage σ τ) (s : σ) (p : Pool σ) : σ × Pool σ :=
  let (jobs, s) := st.takeJobs s
  let (woken, still) := p.waiting.partition (Fiber.woken s)
  (s, { ready := p.ready ++ jobs.map st.launch ++ woken, waiting := still })

/-- Runs a fiber for at most `steps` steps, until it ends, waits for what has not happened yet,
or gives way; answers the state, the pool and the rest of the fiber. -/
def run (st : Stage σ τ) : Nat → σ → Pool σ → Fiber σ α → σ × Pool σ × Fiber σ α
  | 0, s, p, f => (s, p, f)
  | _ + 1, s, p, .done a => (s, p, .done a)
  | n + 1, s, p, .read k => run st n s p (k s)
  | n + 1, s, p, .write g k =>
    let (s, p) := st.settle (g s) p
    run st n s p k
  | n + 1, s, p, .wait d r k =>
    if r s || d.any (· ≤ st.clock s) then run st n s p k else (s, p, .wait d r k)
  | _ + 1, s, p, .pass k => (s, p, .pass k)

/-- One turn of the first ready fiber. -/
def turn (st : Stage σ τ) (steps : Nat) (s : σ) (p : Pool σ) : σ × Pool σ :=
  match p.ready with
  | [] => (s, p)
  | f :: rest =>
    let (s, p, f) := st.run steps s { p with ready := rest } f
    (s, p.file f)

/-- Turns until no fiber is ready, at most `turns` of them. -/
def drain (st : Stage σ τ) (steps : Nat) : Nat → σ → Pool σ → σ × Pool σ
  | 0, s, p => (s, p)
  | n + 1, s, p =>
    if p.ready.isEmpty then (s, p)
    else
      let (s, p) := st.turn steps s p
      drain st steps n s p

/-- Drives a main flow to its end beside the pool, with at most `turns` turns and `steps` steps
a turn. -/
def drive (st : Stage σ τ) (steps : Nat) : Nat → σ → Pool σ → Fiber σ α → Ending σ α
  | 0, s, _, _ => .stuck s
  | n + 1, s, p, m =>
    if st.halted s then .halted s else
    match m with
    | .done a => .ended a s p
    | .pass k =>
      let (s, p) := st.drain steps steps s p
      let (s, p, m) := st.run steps s (p.expire (st.clock s)) k
      drive st steps n s p m
    | .wait d r k =>
      if !p.ready.isEmpty then
        let (s, p) := st.turn steps s p
        drive st steps n s p (.wait d r k)
      else if r s || d.any (· ≤ st.clock s) then
        let (s, p, m) := st.run steps s p k
        drive st steps n s p m
      else
        let next := match d, p.nextDeadline with
          | some a, some b => some (min a b)
          | some a, none => some a
          | none, b => b
        match next with
        | none => .stuck s
        | some t =>
          let s := st.setClock s t
          let p := p.expire t
          let (s, p, m) := st.run steps s p (.wait d r k)
          drive st steps n s p m
    | m =>
      let (s, p, m) := st.run steps s p m
      drive st steps n s p m

end Stage

end TierCache
