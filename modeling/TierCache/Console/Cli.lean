import TierCache.Cli.Launch
import TierCache.Console.Fields
import TierCache.Console.Settings
/-!
# Running the program from the console

A request gives the arguments, the environment, optionally the text of a settings file, whether
the program is left serving, and the requests made to its servers. `{config}` names the settings
file (which exists only when its text is given); `{health}` and `{metrics}` name free local
addresses, and `{busy}` one another program holds. The usual system directories exist.

The answer gives the exit code (`null` while the program serves, which then counts as timed out),
standard output and standard error; for a serving run it gives standard error, the log lines as
`LEVEL message`, sorted, with the addresses named back, and one answer per request. The servers
are never reached from the console, so each request is unreachable.
-/

namespace TierCache

namespace Console

/-- The names standing for addresses, with the addresses they stand for. -/
def addressNames : List (String × String) :=
  [("\x7bhealth\x7d", "127.0.0.1:47001"), ("\x7bmetrics\x7d", "127.0.0.1:47002"),
   ("\x7bbusy\x7d", "127.0.0.1:47003")]

/-- Puts the addresses in place of their names. -/
def fillAddresses (s : String) : String :=
  addressNames.foldl (fun s (name, addr) => s.replace name addr) s

/-- Puts the names back in place of the addresses. -/
def nameAddresses (s : String) : String :=
  addressNames.foldl (fun s (name, addr) => s.replace addr name) s

/-- The machine a request describes. -/
def requestMachine (env : List (String × String)) (configText : Option String) : Machine :=
  let tree : FileTree :=
    { files := (configText.map fun t => ("\x7bconfig\x7d", t)).toList, directories := systemDirectories }
  let network : Network := { held := ((SocketAddr.parse? "127.0.0.1:47003").toList) }
  { env := fun k => (env.lookup k).map fillAddresses, read := tree.read, bind := network.bind }

/-- The answer to a run of the program. -/
def cliRequest (req : Json) : Json :=
  let args := ((strings? req "args").getD []).map fillAddresses
  let env := match req.field? "env" with
    | some (.obj ms) => ms.filterMap fun (k, v) => match v with
      | .str s => some (k, s)
      | _ => none
    | _ => []
  let run := launch (requestMachine env (str? req "config_yaml")) args
  let exitCode := match run.exitCode with
    | some c => Json.ofNat c
    | none => .null
  let timedOut := Json.bool run.exitCode.isNone
  if (bool? req "serve").getD false then
    let log := sortStrings (run.log.map fun l => nameAddresses (l.level.name ++ " " ++ l.message))
    let responses := ((list? req "requests").getD []).map fun _ => Json.ofMembers [("unreachable", .bool true)]
    ok (Json.ofMembers [("exit_code", exitCode), ("timed_out", timedOut), ("stderr", .str run.errors),
      ("responses", .arr responses), ("log", .arr (log.map .str))])
  else
    let stdout := run.printed ++ String.join (run.log.map fun l => l.render run.logJson ++ "\n")
    ok (Json.ofMembers [("exit_code", exitCode), ("timed_out", timedOut), ("stdout", .str stdout),
      ("stderr", .str run.errors)])

end Console

end TierCache
