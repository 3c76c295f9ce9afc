import TierCache.Console.Stateless
import TierCache.Console.Tiers
import TierCache.Console.Settings
import TierCache.Console.Reports
import TierCache.Console.Activity
import TierCache.Console.Endpoints
import TierCache.Console.Steps
import TierCache.Console.Cli

/-!
# The console's dispatch

A request names its operation in `op`; the answer is that operation's.
-/

namespace TierCache

namespace Console

/-- The answer to one request. -/
def answer (req : Json) : Json :=
  match str? req "op" with
  | some "glob" => globRequest req
  | some "strategy" => strategyRequest req
  | some "deserialize" => deserializeRequest req
  | some "codec_encode" => encodeRequest req
  | some "codec_decode" => decodeRequest req
  | some "codec_value" => valueRequest req
  | some "breaker" => breakerRequest req
  | some "memory" => memoryRequest req
  | some "dtier" => tierRequest req
  | some "config_json" => configJsonRequest req
  | some "config_yaml" => configYamlRequest req
  | some "config_file" => configFileRequest req
  | some "health_response" => healthRequest req
  | some "exporter" => exporterRequest req
  | some "patterns" => patternsRequest req
  | some "connection_info" => connectionInfoRequest req
  | some "redis_connect" => connectRequest req
  | some "session" => sessionRequest req
  | some "cli" => cliRequest req
  | some op => badInput ("unknown op " ++ op)
  | none => badInput "missing op"

/-- The answer to one line of input. -/
def answerLine (line : String) : Json :=
  match Json.parse line.toUTF8 with
  | .ok req => answer req
  | .error e => badInput e.message

end Console

end TierCache
