import StyleScaffold.Number.Literal
import StyleScaffold.Remote.Host
import StyleScaffold.Remote.Message

/-!
# Addresses

An address names a scheme, an authority, a path, and perhaps a query and a fragment. The
authority is a host, perhaps with a user in front and the number of a socket behind it. What
cannot stand in a part is written by its bytes, steps back in the path are taken, and a socket
that its scheme implies is left out.

An address may stand below a base: its path and query then continue those of the base.
-/

namespace StyleScaffold.Remote

open Text

def maxAddressLength : Nat := 65536

/-- The sockets that schemes imply. -/
def impliedSockets : List (Text × Int) :=
  [("ftp", 21), ("http", 80), ("https", 443), ("ws", 80), ("wss", 443)]

/-- The characters of ASCII that are not written as themselves in a query. -/
def queryReserved : Text := " \"#<>"

/-- The characters of ASCII that are not written as themselves in a fragment. -/
def fragmentReserved : Text := " \"<>`"

/-- The characters of ASCII that are not written as themselves in a path. -/
def pathReserved : Text := queryReserved ++ "?`\x7b\x7d"

/-- The characters of ASCII that are not written as themselves in the part for the user. -/
def userReserved : Text := pathReserved ++ "/;=@[\\]^|"

/-- The text with the given characters, and those outside ASCII, written by their bytes. -/
def encodePart (reserved s : Text) : Except AddressFault Text :=
  if s.isWellFormed then
    .ok (percentEncode (fun c => isAscii c && ! reserved.contains c) s)
  else .error .unencodable

/-- Where a service runs. -/
structure Authority where
  user : Text := []
  host : Text := []
  socket : Option Int := none
  deriving DecidableEq

namespace Authority

def isEmpty (a : Authority) : Bool := a = {}

/-- What stands behind the last of some marks, all of it where there is none. -/
def behindLast (mark : CodePoint) (s : Text) : Text := (cut mark s).getLast?.getD []

/-- The host in front of a text, in brackets or up to a colon, and the rest. -/
def hostPart (s : Text) : Text × Text :=
  if s.head? = some '[' ∧ s.contains ']' then
    let rest := behindLast ']' s
    (s.take (s.length - rest.length), rest)
  else run (· ≠ (':' : CodePoint)) s

/-- The number of a socket, none where it is missing or implied by the scheme. -/
def socketOf (scheme s : Text) : Except AddressFault (Option Int) :=
  if s.isEmpty then .ok none
  else
    match Literal.integer? s with
    | none => .error .malformed
    | some n => .ok (if impliedSockets.lookup scheme = some n then none else some n)

/-- The authority that a text writes. -/
def ofText (scheme s : Text) : Except AddressFault Authority := do
  let behind := behindLast '@' s
  let user := s.take (s.length - behind.length - 1)
  let (host, socket) := hostPart behind
  let user ← encodePart userReserved user
  let some host := Host.ofText? host | .error .malformed
  return ⟨user, host, ← socketOf scheme ((strip? ":" socket).getD socket)⟩

/-- The authority as it stands in an address. -/
def text (a : Authority) : Text :=
  let user : Text := if a.user.isEmpty then [] else a.user ++ "@"
  let socket : Text := match a.socket with
    | some n => ":" ++ ofInt n
    | none => []
  user ++ Host.text a.host ++ socket

end Authority

/-- An address with each part as it is written. -/
structure Address where
  scheme : Text
  authority : Authority
  path : Text
  query : Option Text
  fragment : Option Text
  deriving DecidableEq

namespace Address

/-- The steps of a path with each step back taken. -/
def takeBack (steps : List Text) : List Text :=
  steps.foldl (fun (taken : List Text) (step : Text) =>
    if step = "." then taken
    else if step = ".." then (if taken = [[]] then taken else taken.dropLast)
    else taken ++ [step]) []

/-- Whether a path may stand behind a scheme and an authority. -/
def fits (scheme : Text) (authority : Authority) (path : Text) : Bool :=
  if ! authority.isEmpty then path.isEmpty || startsWith "/" path
  else ! scheme.isEmpty || ! (startsWith "//" path || startsWith ":" path)

/-- The address with the given parts. -/
def ofParts (scheme : Text) (authority : Authority) (path : Text)
    (query fragment : Option Text) : Except AddressFault Address := do
  let parts := path :: (query.toList ++ fragment.toList)
  if ! (parts.all (·.length ≤ maxAddressLength) && fits scheme authority path) then
    throw .malformed
  let path :=
    if scheme.isEmpty && authority.isEmpty then path else join ['/'] (takeBack (cut '/' path))
  return ⟨scheme, authority, ← encodePart pathReserved path,
    ← query.mapM (encodePart queryReserved), ← fragment.mapM (encodePart fragmentReserved)⟩

/-- The scheme in front of a text, in small letters, and what follows its colon. A colon alone
is the end of an empty scheme. -/
def schemePart (s : Text) : Text × Text :=
  let (scheme, rest) := run isSchemeChar s
  match rest, scheme.head?.all isAsciiLetter with
  | ':' :: rest, true => (scheme.map asciiLower, rest)
  | _, _ => ([], s)

/-- What stands in front of a mark, and what stands behind it where there is one. -/
def aroundMark (mark : CodePoint) (s : Text) : Text × Option Text :=
  match halves? mark s with
  | some (left, right) => (left, some right)
  | none => (s, none)

/-- The address that a text writes. -/
def ofText (s : Text) : Except AddressFault Address := do
  if maxAddressLength < s.length || s.any isAsciiControl then throw .malformed
  let (scheme, rest) := schemePart s
  let (front, fragment) := aroundMark '#' rest
  let (front, query) := aroundMark '?' front
  let (authority, path) :=
    match strip? "//" front with
    | some front => run (· ≠ ('/' : CodePoint)) front
    | none => ([], front)
  ofParts scheme (← Authority.ofText scheme authority) path query fragment

/-- A part of an address behind its mark, nothing where the part is missing. -/
def marked (mark : String) : Option Text → Text
  | some part => mark ++ part
  | none => []

/-- The path, a slash if it is empty. -/
def fullPath (a : Address) : Text := if a.path.isEmpty then "/" else a.path

/-- What is asked for: the path and the query. -/
def target (a : Address) : Text := a.fullPath ++ marked "?" a.query

/-- The address in full. -/
def text (a : Address) : Text :=
  let scheme : Text := if a.scheme.isEmpty then [] else a.scheme ++ ":"
  let authority : Text := if a.authority.isEmpty then [] else "//" ++ a.authority.text
  scheme ++ authority ++ a.path ++ marked "?" a.query ++ marked "#" a.fragment

/-- The address with another target. -/
def withTarget (a : Address) (target : Text) : Except AddressFault Address :=
  let (path, query) := aroundMark '?' target
  ofParts a.scheme a.authority path query a.fragment

/-- The address as a base for others: its target ends with a slash. -/
def asBase (a : Address) : Except AddressFault Address :=
  if a.target.getLast? = some '/' then .ok a else a.withTarget (a.target ++ "/")

/-- The address of an endpoint below a base. Parameters, where they are given, are its whole
query. -/
def below (base : Address) (endpoint : Text) (parameters : Option (List (Text × Text))) :
    Except AddressFault Address := do
  let wanted ← ofText endpoint
  let address ← base.withTarget (base.target ++ wanted.target.dropWhile (· = ('/' : CodePoint)))
  match parameters with
  | none => return address
  | some ps =>
    if ps.all fun (k, v) => k.isWellFormed && v.isWellFormed then
      ofParts address.scheme address.authority address.path (some (queryText ps))
        address.fragment
    else throw .unencodable

/-- The path that is asked for, with its escapes resolved. -/
def plainPath (a : Address) : Text := percentDecode a.fullPath

def parameters (a : Address) : List (Text × Text) := queryParameters (a.query.getD [])

/-- Whether the address in full starts with a name and a colon. -/
def isNamed (a : Address) : Bool :=
  match run (fun c => c ≠ '/' && c ≠ ':') a.text with
  | (_ :: _, ':' :: _) => true
  | _ => false

/-- Where a request for the address goes. -/
def destination (a : Address) : Destination where
  host := Host.shown a.authority.host
  path := a.plainPath
  parameters := a.parameters
  address := a.text
  isNamed := a.isNamed

/-- The endpoints below a base. -/
def locator (base : Address) : Locator := fun endpoint parameters =>
  (base.below endpoint parameters).map destination

end Address

/-- The endpoints below the address that a text writes, to which a token is sent in ASCII. -/
def connect (base token : Text) : Except AddressFault Locator := do
  let base ← (← Address.ofText base).asBase
  if token.all isAscii then return base.locator else throw .unencodable

end StyleScaffold.Remote
