import TierCache.Tasks.Pool
import TierCache.Cache.Tiered
import TierCache.Warming.Scheduler
/-!
# The host a cache service runs on

Everything the cache service's fibers share: the clock, the cache, the data source, the warming
scheduler if there is one, the service's lifecycle if there is one, the health flags, the jobs
asked for and not yet started, and the message of a failure that stopped everything.

The clock counts milliseconds and moves only by waiting. Calendar time is separate: a call says
which instant it is, and the background loops read the system clock (`Host.wall`) at each round.
The runtime's clock does not move the system clock: a session's waits take no real time.
-/

namespace TierCache

/-- The background loops of a started service. -/
inductive Loop where
  /-- Drops expired memory entries. -/
  | sweep
  /-- Pings the distributed tier. -/
  | metrics
  /-- Dispatches every eligible rule. -/
  | tick
  /-- Handles the written keys queued as triggers. -/
  | trigger
  /-- Refreshes the access patterns, trains, and warms the users predicted active. -/
  | analysis
  deriving Repr, DecidableEq, Inhabited

/-- Work that runs as a fiber of its own. -/
inductive Job where
  /-- A write to the distributed tier that was scheduled by a write-behind write. -/
  | writeBehind (key : String) (frame : ByteArray) (ttlMs : Nat) (ticket : Nat)
  /-- A run of a rule that was dispatched at `now`, by a written key if `trigger` is one. -/
  | warm (id : Nat) (rule : Rule) (now : Instant) (trigger : Option String)
  /-- A background loop. -/
  | loop (l : Loop)

/-- The service's lifecycle. -/
structure Lifecycle where
  config : CacheConfig
  started : Bool := false
  cancelled : Bool := false
  /-- Loops started and not yet ended. -/
  running : Nat := 0

/-- The calendar instant a session starts at: 2024-03-04T12:00:00Z. -/
def wallClock : Instant := ⟨(Instant.daysFromCivil 2024 3 4 * 86400 + 43200) * Instant.nanosPerSecond⟩

/-- Everything the fibers share. -/
structure Host where
  clock : Nat := 0
  /-- The system clock's calendar instant. -/
  wall : Instant := wallClock
  cache : TieredCache
  source : DataSource := {}
  warmer : Option Warmer := none
  service : Option Lifecycle := none
  live : Bool := true
  ready : Bool := false
  /-- Jobs asked for and not yet started, oldest first. -/
  requested : List Job := []
  /-- Why everything stopped, if it did. -/
  panic : Option String := none

/-- A program of the host. -/
abbrev Act := Fiber Host

namespace Act

/-- The clock. -/
def now : Act Nat := .read fun h => .done h.clock

/-- Reads the host. -/
def look {α : Type} (f : Host → α) : Act α := .read fun h => .done (f h)

/-- Changes the cache and answers what the change computed. -/
def onCache {α : Type} (f : Nat → TieredCache → α × TieredCache) : Act α :=
  Fiber.modifyGet fun h => let (a, c) := f h.clock h.cache; (a, { h with cache := c })

/-- Changes the cache. -/
def changeCache (f : Nat → TieredCache → TieredCache) : Act Unit :=
  Fiber.modify fun h => { h with cache := f h.clock h.cache }

/-- Changes the warming scheduler, if there is one. -/
def changeWarmer (f : Warmer → Warmer) : Act Unit :=
  Fiber.modify fun h => { h with warmer := h.warmer.map f }

/-- Changes the data source and answers what the change computed. -/
def onSource {α : Type} (f : DataSource → α × DataSource) : Act α :=
  Fiber.modifyGet fun h => let (a, s) := f h.source; (a, { h with source := s })

/-- Asks for a job to start. -/
def spawn (j : Job) : Act Unit := Fiber.modify fun h => { h with requested := h.requested ++ [j] }

/-- Stops everything with a message; the program never goes on. -/
def halt {α : Type} [Inhabited α] (msg : String) : Act α :=
  .write (fun h => { h with panic := some msg }) (.wait none (fun _ => false) (.done default))

/-- Waits `ms` milliseconds. -/
def sleep (ms : Nat) : Act Unit := .read fun h => Fiber.sleepUntil (h.clock + ms)

end Act

end TierCache
