import TierCache.Console.Fields
import TierCache.Config.Schema
import TierCache.Config.FromYaml
import TierCache.Cli.Machine

/-!
# Console requests on settings

Settings read from a JSON value or a YAML document, checked, and answered in full.
-/

namespace TierCache

namespace Console

/-- Checked settings, or the first check they fail. -/
def checked (c : CacheConfig) : Json :=
  match c.validate with
  | .ok () => ok c.toJson
  | .error e => failWith e

/-- Settings read from the JSON value in `config`. -/
def configJsonRequest (req : Json) : Json :=
  match CacheConfig.ofJson ((req.field? "config").getD .null) with
  | .ok c => checked c
  | .error m => failWith (.serialization m.message)

/-- Settings read from YAML text, then checked. -/
def fromYaml (text : String) : Except CacheError CacheConfig := do
  let c ← (CacheConfig.ofYaml text).mapError fun f => CacheError.yaml f.message
  c.validate
  pure c

/-- Settings read from the YAML text in `yaml`. -/
def configYamlRequest (req : Json) : Json :=
  match fromYaml ((str? req "yaml").getD "") with
  | .ok c => ok c.toJson
  | .error e => failWith e

/-- The directories every machine has. -/
def systemDirectories : List String :=
  ["/", "/tmp", "/etc", "/usr", "/var", "/home", "/root", "/dev", "/proc", "/sys", "/bin", "/lib",
   "/opt", ".", ".."]

/-- Settings read from a file: the text given in `yaml`, or a path on a machine that holds the
system directories and no file. -/
def configFileRequest (req : Json) : Json :=
  match str? req "yaml", str? req "path" with
  | some text, _ => configYamlRequest (Json.ofMembers [("yaml", .str text)])
  | none, some path =>
    match ({ files := [], directories := systemDirectories } : FileTree).read path with
    | .ok text => configYamlRequest (Json.ofMembers [("yaml", .str text)])
    | .error e => failWith (.io e.render)
  | none, none => badInput "config_file needs yaml or path"

end Console

end TierCache
