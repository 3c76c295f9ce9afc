import TierCache.Net.SocketAddr
import TierCache.Text.Quote
/-!
# What the program finds where it runs

The program reads its environment variables, reads its settings file, and binds its two
listening sockets. A `Machine` answers these three questions, so that the program itself is a
function of its arguments and a machine.

`FileTree` and `Network` describe a small machine: a few files and directories, and the local
addresses with the ones another program holds.
-/

namespace TierCache

/-- A failure the operating system reports: its number, its kind and its text. -/
structure OsError where
  code : Nat
  kind : String
  message : String
  deriving Repr, DecidableEq, Inhabited

namespace OsError

/-- Nothing exists at the path. -/
def notFound : OsError := ⟨2, "NotFound", "No such file or directory"⟩
/-- A part of the path that should be a directory is a file. -/
def notADirectory : OsError := ⟨20, "NotADirectory", "Not a directory"⟩
/-- The path names a directory where a file was wanted. -/
def isADirectory : OsError := ⟨21, "IsADirectory", "Is a directory"⟩
/-- A part of the path is longer than 255 bytes. -/
def nameTooLong : OsError := ⟨36, "InvalidFilename", "File name too long"⟩
/-- Another socket listens on the address. -/
def addrInUse : OsError := ⟨98, "AddrInUse", "Address already in use"⟩
/-- The address belongs to no interface of this machine. -/
def addrNotAvailable : OsError := ⟨99, "AddrNotAvailable", "Cannot assign requested address"⟩

/-- The text of a failure with its number: `Is a directory (os error 21)`. -/
def render (e : OsError) : String := e.message ++ " (os error " ++ toString e.code ++ ")"

/-- The diagnostic form of a failure: `Os { code: 2, kind: NotFound, message: "..." }`. -/
def debug (e : OsError) : String :=
  "Os \x7b code: " ++ toString e.code ++ ", kind: " ++ e.kind ++ ", message: " ++
    Quote.quote e.message ++ " \x7d"

end OsError

/-- What the program finds where it runs. -/
structure Machine where
  /-- The environment variables. -/
  env : String → Option String
  /-- Reads a text file. -/
  read : String → Except OsError String
  /-- Binds a listening socket, given the sockets the program already holds. -/
  bind : List SocketAddr → SocketAddr → Except OsError Unit

/-- A few files, with their texts, and directories, named by their paths. -/
structure FileTree where
  files : List (String × String)
  directories : List String
  deriving Inhabited

namespace FileTree

/-- The path without trailing slashes, the root excepted. -/
def trimmed (path : String) : String :=
  let cs := path.toList.reverse.dropWhile (· == '/')
  if cs.isEmpty && path.startsWith "/" then "/" else String.ofList cs.reverse

/-- Reads a file. A name longer than 255 bytes is refused; a file cannot be read through as a
directory; a directory is not a file; and anything else does not exist. -/
def read (t : FileTree) (path : String) : Except OsError String :=
  if (path.splitOn "/").any (·.utf8ByteSize > 255) then .error .nameTooLong
  else match t.files.lookup path with
  | some text => .ok text
  | none =>
    if t.files.any fun (f, _) => path.startsWith (f ++ "/") then .error .notADirectory
    else if t.directories.contains (trimmed path) then .error .isADirectory
    else .error .notFound

end FileTree

/-- The local network: which addresses can be bound, and which another program holds. -/
structure Network where
  held : List SocketAddr
  deriving Inhabited

namespace Network

/-- Whether an address stands for every address of its family. -/
def isAny : SocketAddr → Bool
  | .v4 a b c d _ => a == 0 && b == 0 && c == 0 && d == 0
  | .v6 ip _ _ => ip.pieces.toList == [0, 0, 0, 0, 0, 0, 0, 0]

/-- Whether an address belongs to this machine: every address, or a loopback one. -/
def isLocal (a : SocketAddr) : Bool :=
  isAny a || match a with
    | .v4 a _ _ _ _ => a == 127
    | .v6 ip _ _ => ip.pieces.toList == [0, 0, 0, 0, 0, 0, 0, 1]

/-- Whether two sockets of the same family cannot both listen: the same non-zero port on the same
address, or on any address. -/
def clash (a b : SocketAddr) : Bool :=
  let sameFamily := match a, b with
    | .v4 .., .v4 .. => true
    | .v6 .., .v6 .. => true
    | _, _ => false
  let sameIp := match a, b with
    | .v4 a1 a2 a3 a4 _, .v4 b1 b2 b3 b4 _ => [a1, a2, a3, a4] == [b1, b2, b3, b4]
    | .v6 x _ _, .v6 y _ _ => x == y
    | _, _ => false
  sameFamily && a.port != 0 && a.port == b.port && (sameIp || isAny a || isAny b)

/-- Binds a socket: refused for an address of another machine, and for one that clashes with a
socket held here or by this program. -/
def bind (n : Network) (mine : List SocketAddr) (a : SocketAddr) : Except OsError Unit :=
  if !isLocal a then .error .addrNotAvailable
  else if (n.held ++ mine).any (clash a) then .error .addrInUse
  else .ok ()

end Network

end TierCache
