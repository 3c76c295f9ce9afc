/-!
# The command line's flags

The program takes named flags only. Every flag has a long name; `--help` and `--version` also
have the short names `-h` and `-V`. A flag that takes a value names it in capitals, as in
`--config <CONFIG>`. Most flags can also be given through an environment variable, which counts
only when the flag itself is absent, and some have a default.

The help text lists every flag with what it does, its variable (with the variable's current
value, except for the password's) and its default.
-/

namespace TierCache

/-- A flag of the command line. -/
inductive Flag where
  | config
  | redisEndpoints
  | redisPassword
  | memoryCapacity
  | defaultTtlSeconds
  | disableWarming
  | warmingIntervalSeconds
  | metricsAddr
  | healthAddr
  | logLevel
  | logJson
  | help
  | version
  deriving Repr, DecidableEq, Inhabited

/-- What giving a flag does. -/
inductive FlagAction where
  /-- Takes one value; giving the flag twice is refused. -/
  | set
  /-- Takes one value each time it is given, split at commas; the values add up. -/
  | append
  /-- Takes no value and turns the setting on; giving it twice is refused. -/
  | setTrue
  /-- Prints the help text. -/
  | showHelp
  /-- Prints the version. -/
  | showVersion
  deriving Repr, DecidableEq

/-- How a flag's value is read. -/
inductive ValueKind where
  /-- A file path, which may not be empty. -/
  | path
  /-- Any text. -/
  | text
  /-- A 64-bit unsigned number. -/
  | count
  /-- `true` or `false`. -/
  | boolean
  deriving Repr, DecidableEq

/-- The program's name. -/
def programName : String := "tierwarm"

/-- The program's version. -/
def programVersion : String := "0.1.0"

/-- What the program is, as its help text says. -/
def programAbout : String :=
  "Tiered memory + distributed cache with circuit breaking and predictive cache warming"

namespace Flag

/-- Every flag, in the order of the help text. -/
def all : List Flag :=
  [config, redisEndpoints, redisPassword, memoryCapacity, defaultTtlSeconds, disableWarming,
   warmingIntervalSeconds, metricsAddr, healthAddr, logLevel, logJson, help, version]

/-- The long name, without its dashes. -/
def long : Flag → String
  | config => "config"
  | redisEndpoints => "redis-endpoints"
  | redisPassword => "redis-password"
  | memoryCapacity => "memory-capacity"
  | defaultTtlSeconds => "default-ttl-seconds"
  | disableWarming => "disable-warming"
  | warmingIntervalSeconds => "warming-interval-seconds"
  | metricsAddr => "metrics-addr"
  | healthAddr => "health-addr"
  | logLevel => "log-level"
  | logJson => "log-json"
  | help => "help"
  | version => "version"

/-- The short name, if there is one. -/
def short : Flag → Option Char
  | help => some 'h'
  | version => some 'V'
  | _ => none

/-- What giving the flag does. -/
def action : Flag → FlagAction
  | redisEndpoints => .append
  | disableWarming | logJson => .setTrue
  | help => .showHelp
  | version => .showVersion
  | _ => .set

/-- How the flag's value is read. -/
def kind : Flag → ValueKind
  | config => .path
  | memoryCapacity | defaultTtlSeconds | warmingIntervalSeconds => .count
  | disableWarming | logJson => .boolean
  | _ => .text

/-- Whether the flag takes a value on the command line. -/
def takesValue (f : Flag) : Bool := f.action == .set || f.action == .append

/-- The name of the flag's value, in capitals. -/
def valueName (f : Flag) : String := String.ofList (f.long.toList.map fun c => if c == '-' then '_' else c.toUpper)

/-- The environment variable the flag can be given through. -/
def envVar : Flag → Option String
  | config => some "TIERWARM_CONFIG"
  | redisEndpoints => some "REDIS_ENDPOINTS"
  | redisPassword => some "REDIS_PASSWORD"
  | memoryCapacity => some "MEMORY_CAPACITY"
  | defaultTtlSeconds => some "DEFAULT_TTL_SECONDS"
  | disableWarming => some "DISABLE_WARMING"
  | warmingIntervalSeconds => some "WARMING_INTERVAL_SECONDS"
  | metricsAddr => some "METRICS_ADDR"
  | healthAddr => some "HEALTH_ADDR"
  | logLevel => some "LOG_LEVEL"
  | logJson => some "LOG_JSON"
  | help | version => none

/-- Whether the help text keeps the variable's value to itself. -/
def hidesEnvValue (f : Flag) : Bool := f == redisPassword

/-- The value a flag has when it is given neither on the command line nor by its variable. -/
def default? : Flag → Option String
  | metricsAddr => some "0.0.0.0:9090"
  | healthAddr => some "0.0.0.0:8081"
  | logLevel => some "info"
  | _ => none

/-- What the flag does, as the help text says. -/
def about : Flag → String
  | config => "YAML configuration file; flags below override it"
  | redisEndpoints => "Comma-separated distributed tier endpoints (empty = memory-only)"
  | redisPassword => "Distributed tier password"
  | memoryCapacity => "Memory tier capacity in entries"
  | defaultTtlSeconds => "Default TTL in seconds"
  | disableWarming => "Disable cache warming"
  | warmingIntervalSeconds => "Warming tick interval in seconds"
  | metricsAddr => "Metrics server bind address"
  | healthAddr => "Health server bind address"
  | logLevel => "Log level (trace, debug, info, warn, error)"
  | logJson => "Output logs as JSON"
  | help => "Print help"
  | version => "Print version"

/-- The flag as messages write it: `--config <CONFIG>`, `--log-json`. -/
def form (f : Flag) : String :=
  "--" ++ f.long ++ (if f.takesValue then " <" ++ f.valueName ++ ">" else "")

/-- The flag with a long name. -/
def ofLong? (name : String) : Option Flag := all.find? (·.long == name)

/-- The flag with a short name. -/
def ofShort? (c : Char) : Option Flag := all.find? (·.short == some c)

/-- The notes after a flag's description: its variable, with the variable's value unless it is
hidden, and its default. -/
def notes (env : String → Option String) (f : Flag) : List String :=
  let var := match f.envVar with
    | some name =>
      [if f.hidesEnvValue then "[env: " ++ name ++ "]"
       else "[env: " ++ name ++ "=" ++ (env name).getD "" ++ "]"]
    | none => []
  let dflt := match f.default? with
    | some d => ["[default: " ++ d ++ "]"]
    | none => []
  var ++ dflt

/-- A flag's entry in the help text: its names and value on one line, what it does and its
notes indented on the next. -/
def entry (env : String → Option String) (f : Flag) : String :=
  let names := match f.short with
    | some c => "-" ++ String.singleton c ++ ", "
    | none => "    "
  "  " ++ names ++ f.form ++ "\n          " ++ " ".intercalate (f.about :: f.notes env) ++ "\n"

end Flag

/-- How the program is used when nothing more is known: `tierwarm [OPTIONS]`; with flags that
were given, those flags instead, each once, in the order given. -/
def usageLine (used : List Flag) : String :=
  let once := used.foldl (fun seen f => if seen.contains f then seen else seen ++ [f]) []
  if used.isEmpty then programName ++ " [OPTIONS]"
  else programName ++ " " ++ " ".intercalate (once.map Flag.form)

/-- The help text, showing the current values of the variables in `env`. -/
def helpText (env : String → Option String) : String :=
  programAbout ++ "\n\nUsage: " ++ usageLine [] ++ "\n\nOptions:\n" ++
    String.join (Flag.all.map (Flag.entry env))

/-- The version text. -/
def versionText : String := programName ++ " " ++ programVersion ++ "\n"

end TierCache
