import StyleScaffold.Css.Analysis
import StyleScaffold.Json.Access
import StyleScaffold.Json.Parser
import StyleScaffold.Json.Printer
import StyleScaffold.Service.Route
import StyleScaffold.Settings

/-!
# The JSON service

Three endpoints take a stylesheet in a JSON object and answer with JSON: its component, its
blocks converted one by one, or what it defines. Policies in the object take the place of those
in the settings. Answers from the endpoints may be read from every origin; other paths and
methods are refused, and a path with doubled slashes is sent on to the one with single ones.
-/

namespace StyleScaffold.Service

open Text

/-- A request to the service. -/
structure Request where
  method : Text
  path : Text
  contentType : Text
  body : List UInt8

/-- An answer of the service: its status, whether every origin may read it, and its body where
that is JSON. -/
structure Answer where
  status : Nat
  shared : Bool
  body : Option Text
  deriving DecidableEq

/-- The values of the headers that let every origin read an answer: the origins, the headers and
the methods. -/
def sharingHeaders : List Text := ["*", "Content-Type", "POST, OPTIONS"]

/-- Why a request cannot be sent to the service. -/
inductive SendFault where
  /-- There is half of a surrogate pair in the path or its query. -/
  | unencodable
  /-- The header with the content type would end at a line break in it. -/
  | brokenHeader
  deriving DecidableEq, Repr

/-- Why the request cannot be sent, if so. -/
def Request.sendFault? (r : Request) : Option SendFault :=
  if ! (before '#' r.path).isWellFormed then some .unencodable
  else if r.contentType.contains '\r' || r.contentType.contains '\n' then some .brokenHeader
  else none

/-- The media type of a content type: what stands in front of its parameters, without spaces and
tabs around it. -/
def mediaType (contentType : Text) : Text :=
  (trimClass (fun c => c = ' ' || c = '\t') (before ';' contentType)).map asciiLower

/-- The characters outside ASCII whose capital form is in it, with that form. -/
def foreignCapitals : List (CodePoint × Text) :=
  [('ß', "SS"), ('ı', "I"), ('ſ', "S"), ('\uFB00', "FF"), ('\uFB01', "FI"), ('\uFB02', "FL"),
    ('\uFB03', "FFI"), ('\uFB04', "FFL"), ('\uFB05', "ST"), ('\uFB06', "ST")]

/-- A method in capitals. Characters without a capital form in ASCII stay, since no method that
a route allows has them. -/
def methodName (method : Text) : Text :=
  method.flatMap fun c => (foreignCapitals.lookup c).getD [asciiUpper c]

/-- Whether bodies of a content type are read as JSON. -/
def isJsonType (contentType : Text) : Bool :=
  let type := mediaType contentType
  type = "application/json" ||
    (startsWith "application/" type && startsWith (("+json" : Text).reverse) type.reverse)

def jsonAnswer (status : Nat) (v : Json) : Answer := ⟨status, true, some (v.compact ++ "\n")⟩

/-- The answer to a request that cannot be served. -/
def refusal (message : Text) (kind : Option Text) : Answer :=
  jsonAnswer 400 (.obj (("error", .str message) ::
    (kind.map fun k => (("kind" : Text), Json.str k)).toList))

def bareAnswer (status : Nat) (shared : Bool) : Answer := ⟨status, shared, none⟩

/-- The fields of a request with a stylesheet, and the stylesheet, or the answer to a request
without one. A body that is nested too deeply is a failure of the service. -/
def payload (r : Request) : Except Answer (List (Text × Json) × Text) :=
  let missing := refusal "css required" none
  if isJsonType r.contentType then
    match Json.ofMessage Json.nesting r.body with
    | .ok (.obj fields) =>
      match Json.lookup "css" fields with
      | some (.str css) => .ok (fields, css)
      | _ => .error missing
    | .error .tooDeep => .error (bareAnswer 500 true)
    | _ => .error missing
  else .error missing

/-- The settings of a request; an empty policy counts as not given. -/
def requestSettings (s : ConversionSettings) (fields : List (Text × Json)) :
    Except PolicyFault ConversionSettings := do
  let color := Json.fieldOrNull fields "color_policy"
  let color ← if color.truthy then ColorPolicy.ofJson color else pure s.policies.color
  let spacing := Json.fieldOrNull fields "spacing_policy"
  let spacing ← if spacing.truthy then SpacingPolicy.ofJson spacing else pure s.policies.spacing
  return { s with policies := ⟨color, spacing⟩ }

/-- The answer for a fault of a stylesheet; a number that cannot be used is a failure of the
service. -/
def faultAnswer (f : StylesheetFault) : Answer :=
  match f with
  | .blank => refusal f.message (some "EmptyInputError")
  | .noBlock => refusal f.message (some "NoDeclarationBlockError")
  | .number _ => bareAnswer 500 true

/-- A converted block as an object. -/
def blockJson (b : ConvertedBlock) : Json :=
  .obj [("selector", .str b.selector), ("declarations", .ofTexts b.declarations.entries),
    ("classes", .ofTextList b.classes)]

/-- The findings in a stylesheet as an object. -/
def analysisJson (a : Css.Analysis) : Json :=
  .obj [("variables", .ofTexts a.customProperties.entries),
    ("media_queries", .ofTextList a.mediaQueries), ("animations", .ofTextList a.animations),
    ("color_palette", .ofTexts a.colorPalette.entries)]

/-- The result of a conversion as an answer. -/
def resultAnswer : Except StylesheetFault Json → Answer
  | .ok v => jsonAnswer 200 v
  | .error f => faultAnswer f

/-- The answer of an endpoint to a stylesheet. -/
def serve (s : ConversionSettings) (e : Endpoint) (fields : List (Text × Json)) (css : Text) :
    Answer :=
  match e with
  | .analyze => jsonAnswer 200 (analysisJson (Css.analyze css))
  | .convert =>
    match requestSettings s fields with
    | .error f => refusal f.message none
    | .ok s => resultAnswer ((componentOfStylesheet s css).map Component.toJson)
  | .blocks =>
    match requestSettings s fields with
    | .error f => refusal f.message none
    | .ok s =>
      resultAnswer ((convertStylesheet s.policies css).map fun blocks =>
        .obj [("blocks", .arr (blocks.map blockJson))])

/-- The answer of a route to a request with a method that it allows. -/
def follow (s : ConversionSettings) (r : Request) (method : Text) : Route → Answer
  | .endpoint e =>
    if method = "OPTIONS" then bareAnswer 200 true
    else
      match payload r with
      | .ok (fields, css) => serve s e fields css
      | .error answer => answer
  | .file => bareAnswer (if method = "OPTIONS" then 200 else 404) false

/-- The answer to a request. -/
def respond (s : ConversionSettings) (r : Request) : Answer :=
  let method := methodName r.method
  let path := targetPath r.path
  let merged := mergeSlashes path
  match Route.allowing? method path with
  | some route => follow s r method route
  | none =>
    let status :=
      if (Route.allowing? method merged).isSome then 308
      else if (Route.ofPath? path).isSome || (Route.ofPath? merged).isSome then 405
      else 404
    bareAnswer status false

end StyleScaffold.Service
