import TierCache.Cli.Arguments
import TierCache.Cli.LogFilter
import TierCache.Cli.Machine
import TierCache.Config.FromYaml
import TierCache.Config.Settings
import TierCache.Warming.Scheduler
import TierCache.Json.Write
/-!
# Running the program

The program reads its command line, sets up its log, builds its settings, says how it starts,
assembles the cache service and starts its health server and, when metrics are on, its metrics
server. Then it serves until it is interrupted.

- `--help` and `--version` print their text and end with 0; a command line that cannot be used
  prints why on standard error and ends with 2.
- The settings are those of the settings file, which must hold on their own, or the defaults,
  then the flags given: endpoints (when some are given), password, capacity, default lifetime,
  `--disable-warming` and the warming interval. Settings that cannot be read, or that the cache
  cannot run with, end the program with 1 and `Error: ` and the failure's diagnostic form on
  standard error.
- A warming scheduler whose retention the calendar cannot hold stops the program abruptly.
- A server whose address is not a socket address, or cannot be bound, logs an error and leaves
  the other server running.

Only the program's own log lines are kept, those the filter lets through.
-/

namespace TierCache

/-- A line of the program's own log. -/
structure LogLine where
  level : Level
  message : String
  deriving Repr, DecidableEq, Inhabited

namespace LogLine

/-- A line as the log writes it: the level, right-aligned, the program and the message; or, as
JSON, the level, the message among the fields, and the program. -/
def render (json : Bool) (l : LogLine) : String :=
  if json then
    "\x7b\"level\":" ++ quoteJson l.level.name ++ ",\"fields\":\x7b\"message\":" ++ quoteJson l.message ++
      "\x7d,\"target\":" ++ quoteJson programName ++ "\x7d"
  else
    String.ofList (List.replicate (5 - l.level.name.length) ' ') ++ l.level.name ++ " " ++
      programName ++ ": " ++ l.message

end LogLine

/-- What a run of the program shows. -/
structure Run where
  /-- The exit code; `none` while the program keeps serving. -/
  exitCode : Option Nat
  /-- What it printed on standard output besides its log. -/
  printed : String := ""
  /-- What it printed on standard error. -/
  errors : String := ""
  /-- The log lines the filter let through, in the order they were written. -/
  log : List LogLine := []
  /-- Whether the log is written as JSON. -/
  logJson : Bool := false
  /-- The servers listening while the program serves. -/
  listening : List String := []
  deriving Repr, Inhabited

/-- Why the program could not start. -/
inductive StartupFailure where
  | config (detail : String)
  | io (e : OsError)
  | yaml (f : YamlSettings.Fault)
  deriving Inhabited

/-- The diagnostic form of a failure: `Config("...")`, `Io(Os { ... })`, `Yaml(Error(...))`. -/
def StartupFailure.debug : StartupFailure → String
  | .config d => "Config(" ++ Quote.quote d ++ ")"
  | .io e => "Io(" ++ e.debug ++ ")"
  | .yaml f => "Yaml(" ++ f.debug ++ ")"

namespace Invocation

/-- The settings with the flags given applied over them. -/
def apply (inv : Invocation) (c : CacheConfig) : CacheConfig :=
  let c := if inv.endpoints.isEmpty then c else { c with distributed.endpoints := inv.endpoints }
  let c := match inv.password with
    | some p => { c with distributed.credential := some p }
    | none => c
  let c := match inv.memoryCapacity with
    | some n => { c with memory.capacity := n }
    | none => c
  let c := match inv.defaultTtlSeconds with
    | some n => { c with defaultTtlSecs := n }
    | none => c
  let c := if inv.disableWarming then { c with warming.enabled := false } else c
  match inv.warmingIntervalSeconds with
  | some n => { c with warming.intervalSecs := n }
  | none => c

/-- Checks settings as the cache would run with them. -/
def checkSettings (c : CacheConfig) : Except StartupFailure CacheConfig :=
  match c.validate with
  | .ok () => .ok c
  | .error (.config d) => .error (.config d)
  | .error e => .error (.config e.message)

/-- The settings: the settings file's, checked on their own, or the defaults; then with the flags
applied, checked again. -/
def settings (inv : Invocation) (m : Machine) : Except StartupFailure CacheConfig := do
  let base ← match inv.config with
    | some path => do
      let text ← (m.read path).mapError .io
      checkSettings (← (CacheConfig.ofYaml text).mapError .yaml)
    | none => pure {}
  checkSettings (inv.apply base)

end Invocation

/-- How the program says it starts. -/
def startupLog (c : CacheConfig) : List LogLine :=
  [ ⟨.info, "Starting " ++ programName⟩,
    ⟨.info, "  Endpoints: [" ++ ", ".intercalate (c.distributed.endpoints.map Quote.quote) ++ "]"⟩,
    ⟨.info, "  Memory capacity: " ++ toString c.memory.capacity⟩,
    ⟨.info, "  Default TTL: " ++ toString c.defaultTtlSecs ++ "s"⟩,
    ⟨.info, "  Warming enabled: " ++ (if c.warming.enabled then "true" else "false")⟩ ]

/-- Starts a server named `name` on the address text: the line it logs, and the socket it holds
when it listens. -/
def startServer (m : Machine) (name : String) (addr : String) (mine : List SocketAddr) :
    LogLine × Option SocketAddr :=
  let failed := fun (e : CacheError) => (⟨.error, name ++ " server error: " ++ e.message⟩, none)
  match SocketAddr.parse? addr with
  | none => failed (.config ("Invalid " ++ name ++ " server address: " ++ SocketAddr.invalidText))
  | some a =>
    match m.bind mine a with
    | .error e => failed (.internal ("Failed to bind " ++ name ++ " server: " ++ e.render))
    | .ok () => (⟨.info, name ++ " server listening on " ++ a.render⟩, some a)

/-- How the program says it stops once interrupted, with the servers that were listening. -/
def shutdownLog (listening : List String) : List LogLine :=
  [⟨.info, "Shutdown signal received"⟩] ++ listening.map (fun n => ⟨.info, n ++ " server stopped"⟩) ++
    [⟨.info, programName ++ " shutdown complete"⟩]

/-- The text of an abrupt stop. -/
def panicText (message : String) : String :=
  "thread 'main' panicked:\n" ++ message ++
    "\nnote: run with `RUST_BACKTRACE=1` environment variable to display a backtrace\n"

/-- Runs the program on a machine with the arguments after its name. -/
def launch (m : Machine) (args : List String) : Run :=
  match readCommandLine m.env args with
  | .error .help => { exitCode := some 0, printed := helpText m.env }
  | .error .version => { exitCode := some 0, printed := versionText }
  | .error (.refused r) => { exitCode := some 2, errors := r.render }
  | .ok inv =>
    let filter := LogFilter.create inv.logLevel (m.env "RUST_LOG")
    let warnings := String.join (filter.warnings.map (· ++ "\n"))
    let kept := fun (lines : List LogLine) =>
      lines.filter fun l => filter.allows l.level programName ["message"]
    match inv.settings m with
    | .error f =>
      { exitCode := some 1, errors := warnings ++ "Error: " ++ f.debug ++ "\n", logJson := inv.logJson }
    | .ok c =>
      let started := startupLog c
      let scheduler : Except TimeOverflow Unit :=
        if c.warming.enabled then (Warmer.create c.warming).map fun _ => () else .ok ()
      match scheduler with
      | .error o =>
        { exitCode := some 101, errors := warnings ++ panicText o.message, log := kept started,
          logJson := inv.logJson }
      | .ok () =>
        let (health, held) := startServer m "Health" inv.healthAddr []
        let metrics := if c.metricsEnabled then some (startServer m "Metrics" inv.metricsAddr held.toList)
          else none
        let listening := (if held.isSome then ["Health"] else []) ++
          (if (metrics.bind (·.2)).isSome then ["Metrics"] else [])
        { exitCode := none, errors := warnings, log := kept (started ++ [health] ++ (metrics.map (·.1)).toList),
          logJson := inv.logJson, listening }

end TierCache
