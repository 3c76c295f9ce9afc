import TierCache.Net.Url
import TierCache.Error
/-!
# Endpoints of the distributed store

An endpoint is written as a URL. The schemes `redis` and `rediss` name a TCP server: the host
and port (6379 when none is given), the database as the path, and the user name and password
of the URL, percent-decoded. The schemes `unix` and `redis+unix` name a socket file: the path of
the URL, with the database, user name and password in the query (`db`, `user`, `pass`). Either
form may ask for a protocol version in the query (`protocol` = `2`, `resp2`, `3` or `resp3`).
TLS is not available, so `rediss` is refused.
-/

namespace TierCache

/-- Where a server listens. -/
inductive EndpointAddr where
  | tcp (host : String) (port : Nat)
  | unix (path : String)
  deriving Repr, DecidableEq

/-- The address as text: `host:port`, or the socket's path. -/
def EndpointAddr.render : EndpointAddr → String
  | .tcp host port => host ++ ":" ++ toString port
  | .unix path => path

/-- The protocol version spoken to the server. -/
inductive WireProtocol where
  | resp2
  | resp3
  deriving Repr, DecidableEq

def WireProtocol.name : WireProtocol → String
  | .resp2 => "RESP2"
  | .resp3 => "RESP3"

/-- What a connection needs to know of its server. -/
structure Endpoint where
  addr : EndpointAddr
  db : Int := 0
  username : Option String := none
  password : Option String := none
  protocol : WireProtocol := .resp2
  deriving Repr

/-- A refusal of the store's client: a description, the kind of refusal, and possibly the
offending text. -/
structure ClientFault where
  desc : String
  kind : String := "InvalidClientConfig"
  detail : Option String := none
  deriving Repr

/-- The text of a refusal: `desc- Kind`, or `desc - Kind: detail`. -/
def ClientFault.message (f : ClientFault) : String :=
  match f.detail with
  | some d => f.desc ++ " - " ++ f.kind ++ ": " ++ d
  | none => f.desc ++ "- " ++ f.kind

namespace Endpoint

/-- The port of a TCP server when the URL names none. -/
def defaultPort : Nat := 6379

/-- Reads a signed 64-bit integer: an optional sign and at least one decimal digit. -/
def parseI64 (s : String) : Option Int :=
  let (neg, digits) := match s.toList with
    | '-' :: ds => (true, ds)
    | '+' :: ds => (false, ds)
    | ds => (false, ds)
  if digits.isEmpty || !digits.all Char.isDigit then none
  else
    let n : Int := digits.foldl (fun acc c => acc * 10 + (c.toNat - 48 : Nat)) 0
    let v := if neg then -n else n
    if v < -Int.pow 2 63 || v ≥ Int.pow 2 63 then none else some v

/-- The protocol a query asks for; the last `protocol` pair counts. -/
def protocolOf (pairs : List (String × String)) : Except ClientFault WireProtocol :=
  match (pairs.reverse.find? (·.1 == "protocol")).map (·.2) with
  | none => .ok .resp2
  | some p =>
    if p == "2" || p == "resp2" then .ok .resp2
    else if p == "3" || p == "resp3" then .ok .resp3
    else .error { desc := "Invalid protocol version", detail := some p }

/-- The value of the last pair of a name. -/
def lookupLast (pairs : List (String × String)) (name : String) : Option String :=
  (pairs.reverse.find? (·.1 == name)).map (·.2)

/-- A percent-decoded part of user information, which must be UTF-8. -/
def decodeUserinfo (s : String) (what : String) : Except ClientFault String :=
  match Utf8.decode (percentDecode s.toList) with
  | some t => .ok t
  | none => .error { desc := what ++ " is not valid UTF-8 string" }

/-- The database named by a path: the path without its outer slashes, zero when empty. -/
def dbOfPath (path : String) : Except ClientFault Int :=
  let trimmed := String.ofList ((path.toList.dropWhile (· == '/')).reverse.dropWhile (· == '/')).reverse
  if trimmed.isEmpty then .ok 0
  else match parseI64 trimmed with
    | some v => .ok v
    | none => .error { desc := "Invalid database number" }

/-- A TCP endpoint from its URL. -/
def ofTcpUrl (u : Url) : Except ClientFault Endpoint := do
  let host ← match u.host with
    | some (.name s) => pure s
    | some (.ipv6 a) => pure a.render
    | none => throw { desc := "Missing hostname" }
  let port := u.port.getD defaultPort
  if u.scheme == "rediss" then throw { desc := "can't connect with TLS, the feature is not enabled" }
  let pairs := (u.query.map queryPairs).getD []
  let db ← dbOfPath u.pathText
  let username ← if u.username.isEmpty then pure none else some <$> decodeUserinfo u.username "Username"
  let password ← match u.password with
    | some pw => some <$> decodeUserinfo pw "Password"
    | none => pure none
  let protocol ← protocolOf pairs
  return { addr := .tcp host port, db, username, password, protocol }

/-- The file a URL names: its decoded path segments, each after a `/`. Only a URL with a path of
segments and no host but `localhost` names a file. -/
def filePath (u : Url) : Option String :=
  let local_ := match u.host with
    | none => true
    | some (.name "localhost") => true
    | _ => false
  match u.path with
  | .segments xs =>
    if !local_ then none
    else
      let bytes := xs.flatMap fun seg => 47 :: percentDecode seg.toList
      let n := bytes.length
      let isAsciiAlpha (b : UInt8) := (65 ≤ b && b ≤ 90) || (97 ≤ b && b ≤ 122)
      let bytes := if n > 2 && isAsciiAlpha (bytes.getD (n - 2) 0) && (bytes.getD (n - 1) 0 == 58 || bytes.getD (n - 1) 0 == 124)
        then bytes ++ [47] else bytes
      some (Utf8.decodeLossy bytes)
  | .plain _ => none

/-- A socket endpoint from its URL. -/
def ofUnixUrl (u : Url) : Except ClientFault Endpoint := do
  let pairs := (u.query.map queryPairs).getD []
  let path ← match filePath u with
    | some p => pure p
    | none => throw { desc := "Missing path" }
  let db ← match lookupLast pairs "db" with
    | some d => match parseI64 d with
      | some v => pure v
      | none => throw { desc := "Invalid database number" }
    | none => pure 0
  let protocol ← protocolOf pairs
  return { addr := .unix path, db, username := lookupLast pairs "user", password := lookupLast pairs "pass", protocol }

/-- The schemes an endpoint may have. -/
def schemes : List String := ["redis", "rediss", "redis+unix", "unix"]

/-- Reads an endpoint. -/
def parse (text : String) : Except ClientFault Endpoint :=
  match Url.parse text with
  | .ok u =>
    if u.scheme == "redis" || u.scheme == "rediss" then ofTcpUrl u
    else if u.scheme == "unix" || u.scheme == "redis+unix" then ofUnixUrl u
    else .error { desc := "Redis URL did not parse" }
  | .error _ => .error { desc := "Redis URL did not parse" }

/-- Reads an endpoint and gives it the shared credential, which replaces the URL's password. -/
def withCredential (text : String) (credential : Option String) : Except ClientFault Endpoint := do
  let e ← parse text
  return match credential with
    | some pw => { e with password := some pw }
    | none => e

end Endpoint

/-- Why connecting to the distributed store fails here, where no server is reachable: no
endpoint at all; an endpoint that does not read; for one endpoint, the socket file that is not
there or the server that refuses; for several (a cluster), a socket endpoint, or user names or
passwords that differ between the endpoints, and otherwise the servers that cannot be reached. -/
def connectFault (endpoints : List String) (credential : Option String) : CacheError :=
  match endpoints with
  | [] => .config "distributed.endpoints is empty"
  | [one] =>
    match Endpoint.withCredential one credential with
    | .error f => .redis f.message
    | .ok e => match e.addr with
      | .unix _ => .redis "No such file or directory (os error 2)"
      | .tcp _ _ => .redis "Connection refused (os error 111)"
  | many =>
    match many.mapM (Endpoint.withCredential · credential) with
    | .error f => .redis f.message
    | .ok nodes =>
      let first := nodes.head?
      let password := if credential.isSome then none else first.bind (·.password)
      let username := first.bind (·.username)
      let check (n : Endpoint) : Option ClientFault :=
        if (match n.addr with | .unix _ => true | _ => false) then
          some { desc := "This library cannot use unix socket because Redis's cluster command returns only cluster's IP and port." }
        else if password.isSome && n.password != password then
          some { desc := "Cannot use different password among initial nodes." }
        else if username.isSome && n.username != username then
          some { desc := "Cannot use different username among initial nodes." }
        else none
      match nodes.findSome? check with
      | some f => .redis f.message
      | none => .redis ({ desc := "Failed to create initial connections", kind := "IoError" } : ClientFault).message

end TierCache
