import TierCache.Net.Ipv6
import TierCache.Text.Utf8
/-!
# URLs of schemes without special meaning

URLs are read as the URL standard reads them, for every scheme other than the special ones
(`http`, `https`, `ws`, `wss`, `ftp`, `file`), which this reader refuses. Leading and trailing
controls and spaces are dropped and tabs and line breaks anywhere are ignored. After the scheme
and `:` comes either `//` and an authority (user information up to the last `@`, an opaque host
or a bracketed IPv6 address, and a port), then a path of `/`-separated segments with `.` and
`..` resolved; or a path right away; or an opaque path. A query follows `?` and a fragment `#`.

Characters outside what each part allows are percent-encoded as UTF-8 bytes in uppercase hex;
a `%` is kept as it is, so existing escapes survive.
-/

namespace TierCache

/-- The host of a URL. -/
inductive UrlHost where
  /-- An opaque host, percent-encoded. -/
  | name (s : String)
  | ipv6 (a : Ipv6)
  deriving Repr, DecidableEq

/-- The path of a URL. -/
inductive UrlPath where
  /-- The path of a URL with no `/` after its scheme. -/
  | plain (s : String)
  /-- A path of segments, each written after a `/`. -/
  | segments (xs : List String)
  deriving Repr, DecidableEq

/-- A parsed URL. -/
structure Url where
  /-- Lowercase. -/
  scheme : String
  /-- Percent-encoded; empty when absent. -/
  username : String := ""
  password : Option String := none
  host : Option UrlHost := none
  port : Option Nat := none
  path : UrlPath
  /-- Percent-encoded. -/
  query : Option String := none
  deriving Repr

/-- Why a text is not a URL. -/
inductive UrlError where
  | noScheme
  | specialScheme
  | emptyHost
  | invalidPort
  | invalidIpv6
  | invalidHostCharacter
  deriving Repr, DecidableEq

namespace Url

/-- Controls, DEL and every non-ASCII character: what is always percent-encoded. -/
def controlSet (c : Char) : Bool := c.toNat < 0x20 || c.toNat ≥ 0x7F

/-- What the path encodes. -/
def pathSet (c : Char) : Bool := controlSet c || " \"<>`#?{}".contains c

/-- What user names and passwords encode. -/
def userinfoSet (c : Char) : Bool := pathSet c || "/:;=@[\\]^|".contains c

/-- What the query encodes. -/
def querySet (c : Char) : Bool := controlSet c || " \"#<>".contains c

/-- Uppercase two-digit hex of a byte. -/
def hexByte (b : UInt8) : String :=
  let digit (n : Nat) : Char := if n < 10 then Char.ofNat (48 + n) else Char.ofNat (55 + n)
  String.ofList ['%', digit (b.toNat / 16), digit (b.toNat % 16)]

/-- A character, percent-encoded when `set` holds of it. -/
def encodeChar (set : Char → Bool) (c : Char) : String :=
  if set c then String.join ((Utf8.encode (String.singleton c)).map hexByte) else String.singleton c

/-- Characters, each percent-encoded when `set` holds of it. -/
def encode (set : Char → Bool) (cs : List Char) : String := String.join (cs.map (encodeChar set))

/-- The characters that can follow the first letter of a scheme. -/
def isSchemeChar (c : Char) : Bool := c.isAlphanum || c == '+' || c == '-' || c == '.'

/-- The schemes with a meaning of their own in the standard. -/
def specialSchemes : List String := ["http", "https", "ws", "wss", "ftp", "file"]

/-- The user name and password of user information, percent-encoded; a password is present only
when something follows the first `:`. -/
def userinfo (cs : List Char) : String × Option String :=
  match cs.span (· != ':') with
  | (user, []) => (encode userinfoSet user, none)
  | (user, _ :: []) => (encode userinfoSet user, none)
  | (user, _ :: pw) => (encode userinfoSet user, some (encode userinfoSet pw))

/-- The index of the last `@` before the end of the authority (the first `/`, `?` or `#`). -/
def lastAt (cs : List Char) : Option Nat :=
  let auth := cs.takeWhile fun c => c != '/' && c != '?' && c != '#'
  auth.findIdx? (· == '@') |>.map fun _ => auth.length - 1 - (auth.reverse.findIdx (· == '@'))

/-- The characters that no opaque host may hold. -/
def forbiddenInHost (c : Char) : Bool := "\x00\t\n\r #/:<>?@[\\]^|".contains c

/-- Reads a host: a bracketed IPv6 address, or an opaque name with its controls and non-ASCII
characters percent-encoded. -/
def parseHost (s : List Char) : Except UrlError UrlHost :=
  match s with
  | '[' :: rest =>
    if rest.getLast? != some ']' then .error .invalidIpv6
    else match Ipv6.parse? (String.ofList rest.dropLast) with
      | some a => .ok (.ipv6 a)
      | none => .error .invalidIpv6
  | _ => if s.any forbiddenInHost then .error .invalidHostCharacter else .ok (.name (encode controlSet s))

/-- The host's characters: up to a `:` outside brackets, or a `/`, `?` or `#`. -/
def hostSpan (cs : List Char) : List Char × List Char :=
  let rec go : List Char → Bool → List Char → List Char × List Char
    | [], _, acc => (acc.reverse, [])
    | c :: rest, inside, acc =>
      if (c == ':' && !inside) || c == '/' || c == '?' || c == '#' then (acc.reverse, c :: rest)
      else go rest (if c == '[' then true else if c == ']' then false else inside) (c :: acc)
  go cs false []

/-- Reads a port after its `:`: decimal digits up to a `/`, `\`, `?`, `#` or the end, at most
65535; no digits at all is no port. -/
def parsePort (cs : List Char) : Except UrlError (Option Nat × List Char) :=
  let rec go : List Char → Nat → Bool → Except UrlError (Option Nat × List Char)
    | [], v, any => .ok (if any then some v else none, [])
    | c :: rest, v, any =>
      if c.isDigit then
        let v := v * 10 + (c.toNat - 48)
        if v > 65535 then .error .invalidPort else go rest v true
      else if c == '/' || c == '\\' || c == '?' || c == '#' then .ok (if any then some v else none, c :: rest)
      else .error .invalidPort
  go cs 0 false

/-- Whether a path segment, as encoded, is `..`. -/
def isDoubleDot (s : String) : Bool :=
  [".."].contains s || ["%2e.", ".%2e", "%2e%2e"].contains (String.ofList (s.toList.map Char.toLower))

/-- Whether a path segment, as encoded, is `.`. -/
def isSingleDot (s : String) : Bool := s == "." || s == "%2e" || s == "%2E"

/-- Closes a path segment: `..` drops the last segment, `.` adds nothing, and either one at the
end of the path leaves an empty last segment. -/
def closeSegment (path : List String) (buffer : String) (atSlash : Bool) : List String :=
  if isDoubleDot buffer then
    let path := path.dropLast
    if atSlash then path else path ++ [""]
  else if isSingleDot buffer then
    if atSlash then path else path ++ [""]
  else path ++ [buffer]

/-- Reads path segments up to a `?`, `#` or the end. -/
def pathSegments (cs : List Char) (path : List String) (buffer : String) : List String × List Char :=
  match cs with
  | [] => (closeSegment path buffer false, [])
  | '/' :: rest => pathSegments rest (closeSegment path buffer true) ""
  | c :: rest =>
    if c == '?' || c == '#' then (closeSegment path buffer false, c :: rest)
    else pathSegments rest path (buffer ++ encodeChar pathSet c)

/-- Reads the query after `?`, up to a `#`; the fragment is dropped. -/
def parseQuery (cs : List Char) : Option String :=
  match cs with
  | '?' :: rest => some (encode querySet (rest.takeWhile (· != '#')))
  | _ => none

/-- Reads what follows `//`: user information, host, port, path and query. -/
def parseAuthority (scheme : String) (cs : List Char) : Except UrlError Url := do
  let (user, password, rest, hasUserinfo) ←
    match lastAt cs with
    | none => pure ("", none, cs, false)
    | some 0 =>
      match cs.drop 1 with
      | c :: _ => if c == '/' || c == '?' || c == '#' then throw UrlError.emptyHost else pure ("", none, cs.drop 1, false)
      | [] => pure ("", none, [], false)
    | some i =>
      let (user, password) := userinfo (cs.take i)
      pure (user, password, cs.drop (i + 1), !user.isEmpty || password.isSome)
  let (hostChars, rest) := hostSpan rest
  let host ← if hostChars.isEmpty then
      (if rest.head? == some ':' then throw UrlError.emptyHost else pure none)
    else some <$> parseHost hostChars
  let (port, rest) ← match rest with
    | ':' :: r => parsePort r
    | r => pure (none, r)
  if host.isNone && hasUserinfo then throw UrlError.emptyHost
  let (path, rest) := match rest with
    | [] => ([], [])
    | '/' :: r => pathSegments r [] ""
    | c :: r => if c == '?' || c == '#' then ([], c :: r) else pathSegments (c :: r) [] ""
  return { scheme, username := user, password, host, port, path := .segments path, query := parseQuery rest }

/-- Reads a URL. -/
def parse (text : String) : Except UrlError Url := do
  let cs := (text.toList.dropWhile (·.toNat ≤ 32)).reverse.dropWhile (·.toNat ≤ 32) |>.reverse
  let cs := cs.filter fun c => c != '\t' && c != '\n' && c != '\r'
  let (schemeChars, rest) ← match cs with
    | c :: _ =>
      if !c.isAlpha then throw UrlError.noScheme
      else match cs.span isSchemeChar with
        | (s, ':' :: rest) => pure (s, rest)
        | _ => throw UrlError.noScheme
    | [] => throw UrlError.noScheme
  let scheme := String.ofList (schemeChars.map Char.toLower)
  if specialSchemes.contains scheme then throw UrlError.specialScheme
  match rest with
  | '/' :: '/' :: r => parseAuthority scheme r
  | '/' :: r =>
    let (path, r) := pathSegments r [] ""
    return { scheme, path := .segments path, query := parseQuery r }
  | r =>
    let body := r.takeWhile fun c => c != '?' && c != '#'
    return { scheme, path := .plain (encode controlSet body), query := parseQuery (r.drop body.length) }

/-- The path as text. -/
def pathText (u : Url) : String :=
  match u.path with
  | .plain s => s
  | .segments xs => String.join (xs.map ("/" ++ ·))

end Url

/-- Bytes with each `%` and two hex digits replaced by the byte they name; any other `%` stays. -/
def percentDecodeBytes (bs : List UInt8) : List UInt8 :=
  match bs with
  | 37 :: h :: l :: rest =>
    match Ipv6.hexValue (Char.ofNat h.toNat), Ipv6.hexValue (Char.ofNat l.toNat) with
    | some a, some b => (a * 16 + b).toUInt8 :: percentDecodeBytes rest
    | _, _ => 37 :: percentDecodeBytes (h :: l :: rest)
  | b :: rest => b :: percentDecodeBytes rest
  | [] => []
termination_by bs.length

/-- The bytes of characters, escapes decoded as `percentDecodeBytes` does. -/
def percentDecode (cs : List Char) : List UInt8 :=
  percentDecodeBytes (Utf8.encode (String.ofList cs))

/-- The name and value pairs of a query, in order: pairs are separated by `&`, a name from its
value by the first `=`, a `+` stands for a space, and escapes are decoded (malformed UTF-8 as
U+FFFD). -/
def queryPairs (query : String) : List (String × String) :=
  let decode (cs : List Char) := Utf8.decodeLossy (percentDecode (cs.map fun c => if c == '+' then ' ' else c))
  (query.splitOn "&").filterMap fun piece =>
    if piece.isEmpty then none
    else match piece.toList.span (· != '=') with
      | (name, []) => some (decode name, "")
      | (name, _ :: value) => some (decode name, decode value)

end TierCache
