import TierCache.Service.Warming
/-!
# The service's lifecycle and its background loops

A started service runs its loops beside whatever else happens: the memory sweep, the ping of the
distributed tier when metrics are on, and, when warming is on, the tick, the trigger handler and
the analysis. A periodic loop fires at once and then once a period; when a round ends more than
5 ms after its deadline, the next deadline is a full period after that round began instead. A
loop that is cancelled stops before its next round, and a round in progress is never cut short.

Shutting down marks the service not ready, cancels the loops and waits for them, then waits for
the warming jobs and for the pending write-behind writes.

`stage` ties it together: it says how the pool of fibers reaches the host's clock and jobs.
-/

namespace TierCache

/-- The most rounds a loop runs. -/
def loopRounds : Nat := 1000000000

/-- The period of a periodic loop, in milliseconds. -/
def Loop.periodMs (c : CacheConfig) : Loop → Nat
  | .sweep => c.memory.sweepIntervalSecs * 1000
  | .metrics => c.metricsIntervalSecs * 1000
  | .tick => c.warming.intervalSecs * 1000
  | .analysis => c.warming.analysisIntervalSecs * 1000
  | .trigger => 0

/-- One round of a periodic loop. -/
def Loop.round : Loop → Act Unit
  | .sweep => Act.changeCache fun now c => (c.onMemory fun m k => m.sweep k now).2
  | .metrics => do let _ ← Act.ping
  | .tick => do let _ ← Act.tick (← Act.look (·.wall))
  | .analysis => do let _ ← Act.analyze (← Act.look (·.wall))
  | .trigger => pure ()

namespace Act

/-- Whether the service is cancelled; a host with no service counts as cancelled. -/
def cancelled (h : Host) : Bool := (h.service.map (·.cancelled)).getD true

/-- Runs `body` at once and then every `period` milliseconds until the service is cancelled. -/
def every (period : Nat) (body : Act Unit) : Act Unit := do
  let start ← now
  let _ ← Fiber.loop (fun deadline => do
    (Fiber.wait (some deadline) cancelled (pure ()) : Act Unit)
    if ← look cancelled then return (deadline, false)
    let t ← now
    let next := if t > deadline + 5 then t + period else deadline + period
    body
    return (next, true)) loopRounds start

/-- Handles queued trigger keys one by one until the service is cancelled; then the queue closes. -/
def handleTriggers : Act Unit := do
  Fiber.loop (fun () => do
    Fiber.waitUntil fun h => cancelled h || (h.cache.triggers.map (!·.keys.isEmpty)).getD false
    if ← look cancelled then return ((), false)
    let key ← onCache fun _ c =>
      match c.triggers.bind (·.pop?) with
      | some (k, q) => (some k, { c with triggers := some q })
      | none => (none, c)
    if let some k := key then
      let _ ← handleTrigger k (← look (·.wall))
    return ((), true)) loopRounds ()
  changeCache fun _ c => { c with triggers := c.triggers.map fun q => { q with keys := [], closed := true } }

/-- A background loop; when it stops, it leaves the running loops. -/
def runLoop (l : Loop) : Act Unit := do
  match l with
  | .trigger => handleTriggers
  | _ =>
    let period ← look fun h => (h.service.map fun s => l.periodMs s.config).getD 1
    every period l.round
  Fiber.modify fun h => { h with service := h.service.map fun s => { s with running := s.running - 1 } }

/-- The fiber of a job. -/
def launch : Job → Act Unit
  | .writeBehind key frame ttlMs ticket => writeBehindJob key frame ttlMs ticket
  | .warm id r now trigger => warmJob id r now trigger
  | .loop l => runLoop l

/-- Starts the loops and marks the service ready; refused when it was started before. -/
def start : Act (Except CacheError Unit) := do
  match ← look (·.service) with
  | none => return .error (.internal "cache service not configured")
  | some s =>
    if s.started then return .error (.internal "cache service already started")
    let warming ← look (·.warmer.isSome)
    let loops := [Loop.sweep] ++ (if s.config.metricsEnabled then [Loop.metrics] else []) ++
      (if warming then [Loop.tick, Loop.trigger, Loop.analysis] else [])
    Fiber.modify fun h => { h with service := some { s with started := true, running := loops.length } }
    for l in loops do spawn (.loop l)
    Fiber.modify fun h => { h with ready := true }
    return .ok ()

/-- Marks the service not ready, cancels the loops and waits for them, then waits for the
warming jobs and the pending write-behind writes. -/
def shutdown : Act Unit := do
  Fiber.modify fun h => { h with ready := false, service := h.service.map fun s => { s with cancelled := true } }
  Fiber.waitUntil fun h => (h.service.map (·.running == 0)).getD true
  if ← look (·.warmer.isSome) then drain
  flush

end Act

/-- Whether the service's loops have run. They write markers stamped with the calendar's
instant, so from then on the memory tier's byte count depends on when the session ran. -/
def Host.stamped (h : Host) : Bool := (h.service.map (·.started)).getD false

/-- How the pool of fibers reaches the host: its clock, the jobs it asks for, and whether it
stopped. -/
def Host.stage : Stage Host Job where
  clock := (·.clock)
  setClock h t := { h with clock := t }
  takeJobs h := (h.requested, { h with requested := [] })
  launch := Act.launch
  halted h := h.panic.isSome

end TierCache
