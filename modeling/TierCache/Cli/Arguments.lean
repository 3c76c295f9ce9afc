import TierCache.Cli.Flags
import TierCache.Text.Jaro
/-!
# ArgState the command line

The arguments are read from left to right. `--name value`, `--name=value` and, for flags with a
short name, `-h` or `-V` are understood; after `--` every argument is a stray. A flag waiting
for its value takes the next argument unless that one looks like a flag itself.

A value is checked when its flag is settled: at once for `--name=value` and flags without
values, and for `--name value` only when the next flag comes, or the arguments end. Settling a
flag can fail: a flag left without its value, a second use of a flag, or a value its kind
refuses. When an unknown flag is met the waiting flag is settled quietly, its failure dropped,
and the flags settled so far, with the most similar known flag, show how the program is used.

After the arguments, each flag not given takes its environment variable if it is set, in the
order of the help text, then its default. `--help` and `--version` stop the reading, but only
once the flag before them is settled.
-/

namespace TierCache

/-- A value read for a flag. -/
inductive FlagValue where
  | text (s : String)
  | count (n : Nat)
  | switch (b : Bool)
  deriving Repr, DecidableEq, Inhabited

/-- Why the command line cannot be used. -/
inductive Refusal where
  /-- An argument that is no flag, with the most similar flag and the flags used so far. -/
  | unknownArgument (arg : String) (similar : Option Flag) (used : List Flag)
  /-- A value that is not one of the flag's values, or an empty one; with the values that are
  possible and the most similar of them. -/
  | invalidValue (flag : Flag) (value : String) (possible : List String) (similar : Option String)
  /-- A value its kind cannot read, with the reason. -/
  | badValue (flag : Flag) (value : String) (reason : String)
  /-- A value given to a flag that takes none. -/
  | unexpectedValue (flag : Flag) (value : String) (used : List Flag)
  /-- A flag given twice. -/
  | repeated (flag : Flag)
  deriving Repr, Inhabited

/-- Why reading the command line stopped. -/
inductive Stop where
  | help
  | version
  | refused (r : Refusal)
  deriving Repr, Inhabited

namespace Refusal

/-- The message of a refusal, after `error: `. -/
def body : Refusal → String
  | unknownArgument arg similar used =>
    "unexpected argument '" ++ arg ++ "' found" ++
      (match similar with
       | some f => "\n\n  tip: a similar argument exists: '--" ++ f.long ++ "'"
       | none => "") ++
      "\n\nUsage: " ++ usageLine used
  | invalidValue f v possible similar =>
    (if v.isEmpty then "a value is required for '" ++ f.form ++ "' but none was supplied"
     else "invalid value '" ++ v ++ "' for '" ++ f.form ++ "'") ++
      (if possible.isEmpty then "" else "\n  [possible values: " ++ ", ".intercalate possible ++ "]") ++
      (match similar with
       | some s => "\n\n  tip: a similar value exists: '" ++ s ++ "'"
       | none => "")
  | badValue f v reason => "invalid value '" ++ v ++ "' for '" ++ f.form ++ "': " ++ reason
  | unexpectedValue f v used =>
    "unexpected value '" ++ v ++ "' for '" ++ f.form ++ "' found; no more were expected" ++
      "\n\nUsage: " ++ usageLine used
  | repeated f => "the argument '" ++ f.form ++ "' cannot be used multiple times" ++
      "\n\nUsage: " ++ usageLine []

/-- The whole message of a refusal. -/
def render (r : Refusal) : String :=
  "error: " ++ r.body ++ "\n\nFor more information, try '--help'.\n"

end Refusal

/-- Reads a 64-bit unsigned number: digits with an optional leading `+`, read left to right; the
first character that is no digit, or that makes the number too large, is the failure. -/
def parseCount (s : String) : Except String Nat :=
  let invalid := "invalid digit found in string"
  let go := fun (acc : Except String Nat) (c : Char) => do
    let n ← acc
    if !c.isDigit then throw invalid
    let n := n * 10 + (c.toNat - '0'.toNat)
    if n ≥ Nat.pow 2 64 then throw "number too large to fit in target type"
    return n
  match s.toList with
  | [] => .error "cannot parse integer from empty string"
  | ['+'] | ['-'] => .error invalid
  | '+' :: ds => ds.foldl go (.ok 0)
  | ds => ds.foldl go (.ok 0)

/-- Reads a value of a flag. -/
def readValue (f : Flag) (raw : String) : Except Refusal FlagValue :=
  match f.kind with
  | .path => if raw.isEmpty then .error (.invalidValue f "" [] none) else .ok (.text raw)
  | .text => .ok (.text raw)
  | .count =>
    match parseCount raw with
    | .ok n => .ok (.count n)
    | .error reason => .error (.badValue f raw reason)
  | .boolean =>
    if raw == "true" then .ok (.switch true)
    else if raw == "false" then .ok (.switch false)
    else .error (.invalidValue f raw ["true", "false"] (Jaro.suggest raw ["true", "false"]))

/-- The command line read so far. -/
structure ArgState where
  /-- The flags settled, in the order they were first settled, with their values. -/
  given : List (Flag × List FlagValue) := []
  /-- A flag given as `--name` whose value comes from the next argument, with that value once
  it has come. -/
  pending : Option (Flag × List String) := none
  /-- Whether `--` has been read. -/
  trailing : Bool := false
  deriving Inhabited

namespace ArgState

/-- Whether a flag is settled. -/
def has (r : ArgState) (f : Flag) : Bool := r.given.any (·.1 == f)

/-- The settled flags in order. -/
def present (r : ArgState) : List Flag := r.given.map (·.1)

/-- The values of a flag. -/
def valuesOf (r : ArgState) (f : Flag) : List FlagValue := ((r.given.find? (·.1 == f)).map (·.2)).getD []

/-- Starts a flag's entry, keeping an existing one. -/
def start (r : ArgState) (f : Flag) : ArgState :=
  if r.has f then r else { r with given := r.given ++ [(f, [])] }

/-- Adds a value to a flag's entry. -/
def push (r : ArgState) (f : Flag) (v : FlagValue) : ArgState :=
  { r with given := r.given.map fun (g, vs) => if g == f then (g, vs ++ [v]) else (g, vs) }

/-- Reads and adds values one by one; the first refused stops, with the others added. -/
def pushAll (r : ArgState) (f : Flag) : List String → ArgState × Option Stop
  | [] => (r, none)
  | raw :: rest =>
    match readValue f raw with
    | .ok v => pushAll (r.push f v) f rest
    | .error e => (r, some (.refused e))

/-- Settles a flag with raw values. From the command line a flag that takes a value must have
one. A flag given twice is refused and dropped; otherwise its entry is started before its values
are read, so it counts as used even when a value is refused. -/
def settle (r : ArgState) (f : Flag) (raws : List String) (fromLine : Bool) : ArgState × Option Stop :=
  if fromLine && f.takesValue && raws.isEmpty then (r, some (.refused (.invalidValue f "" [] none)))
  else
    match f.action with
    | .showHelp => (r, some .help)
    | .showVersion => (r, some .version)
    | .append => (r.start f).pushAll f (raws.flatMap (·.splitOn ","))
    | .set =>
      if r.has f then ({ r with given := r.given.filter (·.1 != f) }, some (.refused (.repeated f)))
      else (r.start f).pushAll f raws
    | .setTrue =>
      if r.has f then ({ r with given := r.given.filter (·.1 != f) }, some (.refused (.repeated f)))
      else (r.start f).pushAll f (if raws.isEmpty then ["true"] else raws)

/-- Settles the waiting flag, if any. -/
def resolve (r : ArgState) : ArgState × Option Stop :=
  match r.pending with
  | none => (r, none)
  | some (f, raws) => settle { r with pending := none } f raws true

end ArgState

/-- A reading that stops when a step failed. -/
def settled : ArgState × Option Stop → Except Stop ArgState
  | (r, none) => .ok r
  | (_, some s) => .error s

/-- The known long names, in the order flags are matched against. -/
def longNames : List String := Flag.all.map Flag.long

/-- The refusal of an unknown long flag `--name`: the waiting flag is settled quietly, and the
most similar known flag joins the flags used. -/
def unknownLong (r : ArgState) (name : String) : Stop :=
  let (r, _) := r.resolve
  let similar := (Jaro.suggest name longNames).bind Flag.ofLong?
  .refused (.unknownArgument ("--" ++ name) similar (r.present ++ similar.toList))

/-- Reads the arguments, then settles the waiting flag. -/
def readArgs (r : ArgState) : List String → Except Stop ArgState
  | [] => settled r.resolve
  | a :: rest =>
    if r.trailing then .error (.refused (.unknownArgument a none []))
    else if a == "--" then readArgs { r with trailing := true } rest
    else match a.toList with
    | '-' :: '-' :: body =>
      let name := String.ofList (body.takeWhile (· != '='))
      let value := match body.dropWhile (· != '=') with
        | _ :: v => some (String.ofList v)
        | [] => none
      match Flag.ofLong? name, value with
      | none, _ => .error (unknownLong r name)
      | some f, some v =>
        if f.takesValue then do
          let r ← settled r.resolve
          let r ← settled (r.settle f [v] true)
          readArgs r rest
        else .error (.refused (.unexpectedValue f v (r.present ++ [f])))
      | some f, none =>
        if f.takesValue then do
          let r ← settled r.resolve
          readArgs { r with pending := some (f, []) } rest
        else do
          let r ← settled r.resolve
          let r ← settled (r.settle f [] true)
          readArgs r rest
    | '-' :: c :: _ =>
      match Flag.ofShort? c with
      | some f => do
        let r ← settled r.resolve
        let r ← settled (r.settle f [] true)
        readArgs r rest
      | none => .error (.refused (.unknownArgument ("-" ++ String.singleton c) none []))
    | _ =>
      match r.pending with
      | some (f, []) => readArgs { r with pending := some (f, [a]) } rest
      | _ => .error (.refused (.unknownArgument a none []))

/-- Settles each flag not given from its environment variable, in order. -/
def readEnv (env : String → Option String) (r : ArgState) : Except Stop ArgState :=
  Flag.all.foldlM (fun r f =>
    match f.envVar.bind env with
    | some v => if r.has f then pure r else settled (r.settle f [v] false)
    | none => pure r) r

/-- What the command line asks for. -/
structure Invocation where
  config : Option String
  endpoints : List String
  password : Option String
  memoryCapacity : Option Nat
  defaultTtlSeconds : Option Nat
  disableWarming : Bool
  warmingIntervalSeconds : Option Nat
  metricsAddr : String
  healthAddr : String
  logLevel : String
  logJson : Bool
  deriving Repr, Inhabited

namespace Invocation

/-- The text value of a flag, or its default. -/
def textOf (r : ArgState) (f : Flag) : Option String :=
  match r.valuesOf f with
  | [.text s] => some s
  | _ => f.default?

/-- The number a flag was given. -/
def countOf (r : ArgState) (f : Flag) : Option Nat :=
  match r.valuesOf f with
  | [.count n] => some n
  | _ => none

/-- Whether a switch is on. -/
def switchOf (r : ArgState) (f : Flag) : Bool :=
  match r.valuesOf f with
  | [.switch b] => b
  | _ => false

/-- What a complete reading asks for. -/
def ofReading (r : ArgState) : Invocation :=
  { config := textOf r .config,
    endpoints := (r.valuesOf .redisEndpoints).filterMap fun | .text s => some s | _ => none,
    password := textOf r .redisPassword,
    memoryCapacity := countOf r .memoryCapacity,
    defaultTtlSeconds := countOf r .defaultTtlSeconds,
    disableWarming := switchOf r .disableWarming,
    warmingIntervalSeconds := countOf r .warmingIntervalSeconds,
    metricsAddr := (textOf r .metricsAddr).getD "",
    healthAddr := (textOf r .healthAddr).getD "",
    logLevel := (textOf r .logLevel).getD "",
    logJson := switchOf r .logJson }

end Invocation

/-- Reads the command line with the environment. -/
def readCommandLine (env : String → Option String) (args : List String) : Except Stop Invocation := do
  let r ← readArgs {} args
  let r ← readEnv env r
  return Invocation.ofReading r

end TierCache
