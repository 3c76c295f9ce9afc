import TierCache.Console.Fields
import TierCache.Store.Endpoint
/-!
# Console requests on endpoints

Reading an endpoint with a shared credential, and connecting to a list of endpoints, which
fails here for every list since no server is reachable.
-/

namespace TierCache

namespace Console

/-- An endpoint as a report shows it. -/
def endpointJson (e : Endpoint) : Json :=
  Json.ofMembers [("addr", .str e.addr.render), ("db", Json.ofInt e.db),
    ("username", Json.ofOption e.username), ("password", Json.ofOption e.password),
    ("protocol", .str e.protocol.name)]

/-- Reads an endpoint and applies the credential. -/
def connectionInfoRequest (req : Json) : Json :=
  match Endpoint.withCredential ((str? req "endpoint").getD "") (str? req "credential") with
  | .ok e => ok (endpointJson e)
  | .error f => failWith (.redis f.message)

/-- Connects to the distributed store the settings name. -/
def connectRequest (req : Json) : Json :=
  let d := (req.get? "distributed").getD (.obj [])
  failWith (connectFault ((strings? d "endpoints").getD []) (str? d "credential"))

end Console

end TierCache
