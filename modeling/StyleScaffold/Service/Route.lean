import StyleScaffold.Text.Percent

/-!
# Routes of the service

A request aims at a path, which may stand in an address and in front of a query. The path leads
to an endpoint, which takes stylesheets, or to a file, of which the service has none; each
allows its own methods. Runs of slashes count as one where the path is looked up again.
-/

namespace StyleScaffold.Service

open Text

/-- What the service does with a stylesheet. -/
inductive Endpoint where
  | convert
  | blocks
  | analyze
  deriving DecidableEq, Repr

/-- The paths of the endpoints. -/
def endpoints : List (Text × Endpoint) :=
  [("/api/convert", .convert), ("/api/translate", .blocks), ("/api/analyze", .analyze)]

/-- What a path leads to. -/
inductive Route where
  | endpoint (e : Endpoint)
  | file
  deriving DecidableEq, Repr

namespace Route

/-- The methods that a route allows. -/
def methods : Route → List Text
  | .endpoint _ => ["POST", "OPTIONS"]
  | .file => ["GET", "HEAD", "OPTIONS"]

/-- Whether a text names a file below the directory of the files. -/
def isFileName : Text → Bool
  | [] => false
  | c :: rest => c ≠ '/' && ! rest.contains '\n'

/-- The route of a path. -/
def ofPath? (path : Text) : Option Route :=
  match endpoints.lookup path, strip? "/static/" path with
  | some e, _ => some (.endpoint e)
  | none, some name => if isFileName name then some .file else none
  | none, none => none

/-- The route of a path that allows a method. -/
def allowing? (method path : Text) : Option Route :=
  (ofPath? path).filter fun route => route.methods.contains method

end Route

/-! ## Paths -/

/-- Drops control characters and spaces in front. -/
def withoutFront (s : Text) : Text := s.dropWhile fun c => c.toNat ≤ 0x20

/-- The text behind its scheme, if it has one. -/
def withoutScheme (s : Text) : Text :=
  match run isSchemeChar s with
  | (first :: _, ':' :: rest) => if isAsciiLetter first then rest else s
  | _ => s

/-- The path in an address, which may lack all its other parts. Tabs and line breaks do not
count. -/
def pathIn (address : Text) : Text :=
  let bare := (withoutFront address).filter fun (c : CodePoint) => c ≠ '\t' && c ≠ '\r' && c ≠ '\n'
  let front := (withoutScheme bare).takeWhile fun (c : CodePoint) => c ≠ '?' && c ≠ '#'
  match strip? "//" front with
  | some rest => rest.dropWhile (· ≠ ('/' : CodePoint))
  | none => front

/-- The path at which a target aims: the path in the path in it, with its escapes resolved and
one slash in front. -/
def targetPath (target : Text) : Text :=
  let decoded := percentDecode (withoutFront (pathIn (pathIn target)))
  '/' :: decoded.dropWhile (· = ('/' : CodePoint))

/-- The text with one slash in the place of each run of them. -/
def mergeSlashes : Text → Text
  | [] => []
  | c :: rest =>
    match rest with
    | '/' :: _ => if c = '/' then mergeSlashes rest else c :: mergeSlashes rest
    | _ => c :: mergeSlashes rest

end StyleScaffold.Service
