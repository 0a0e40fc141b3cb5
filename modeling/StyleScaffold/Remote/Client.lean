import StyleScaffold.Design.Reader
import StyleScaffold.Json.Display
import StyleScaffold.Json.Parser
import StyleScaffold.Remote.Message

/-!
# The design service

A session asks the design service for files, for single nodes and for rendered images. The
network is a list of replies, taken one by one; when none is left the service knows nothing of
what is asked. A call fails with a fault of the service, when no usable answer came, or with a
fault of the data, when the answer is JSON of another shape. What is asked has to have an
address, JSON can only be read where it is not nested too deeply, and nothing can be asked of a
closed session.

How addresses are found is left open: a session is given a way to do it.

A session remembers its steps: what was wanted, what was asked, and what answered.
-/

namespace StyleScaffold.Remote

open Text Design

/-- Why the service gave no usable answer. -/
inductive ServiceFault where
  | timedOut (reason : Text)
  | unreachable (reason : Text)
  /-- The status says that the request failed. -/
  | refused (status : Int)
  /-- The body is no JSON. -/
  | notJson (status : Int)
  /-- The images could not be rendered. -/
  | notRendered (reason : Json)

namespace ServiceFault

/-- The words for a fault. -/
def message : ServiceFault → Text
  | .timedOut reason => "Figma API timed out: " ++ reason
  | .unreachable reason => "Figma API unreachable: " ++ reason
  | .refused status => "Figma API error: " ++ ofInt status ++ " " ++ phrase status
  | .notJson _ => "Figma API returned invalid JSON"
  | .notRendered reason => "Figma image render failed: " ++ reason.display

/-- The status of the reply, where one came and is at fault. -/
def status? : ServiceFault → Option Int
  | .refused status => some status
  | .notJson status => some status
  | _ => none

/-- Whether another fault lies behind this one. -/
def hasCause : ServiceFault → Bool
  | .refused _ => false
  | .notRendered _ => false
  | _ => true

end ServiceFault

/-- Why a call failed. -/
inductive CallFault where
  | service (fault : ServiceFault)
  | data (fault : DataFault)
  /-- What was wanted has no address that can be used. -/
  | address (fault : AddressFault)
  /-- There are too many arrays and objects inside each other in the answer. -/
  | tooDeep
  /-- The session had been closed. -/
  | closed

/-- A step of a session: the endpoint that was wanted, the request if one was made, and the
address and the status of the answer if there was one. -/
structure Step where
  endpoint : Text
  request : Option Request := none
  answer : Option (Text × Int) := none

/-- A session with the service: where its endpoints are, what will come back, how deeply that may be
nested, and what has been done. -/
structure Session where
  locate : Locator
  token : Text
  replies : List Reply
  nesting : Nat := Json.nesting
  steps : List Step := []
  isOpen : Bool := true

/-- A call in a session. The session goes on whether the call succeeds or not. -/
abbrev Call (α : Type) := ExceptT CallFault (StateM Session) α

namespace Session

def asked (s : Session) : List Request := s.steps.filterMap (·.request)

def withStep (step : Step) (s : Session) : Session := { s with steps := s.steps ++ [step] }

/-- The reply of a service that does not know what is asked. -/
def noReply : Reply := .answer 404 (encode "\x7b\x7d")

/-- The request that goes to a destination. -/
def requestTo (s : Session) (d : Destination) : Request := ⟨d.host, d.path, d.parameters, s.token⟩

/-- The value in a reply from a destination, and the address and the status of the answer. -/
def readReply (nesting : Nat) (d : Destination) :
    Reply → Option (Text × Int) × Except CallFault Json
  | .timedOut reason => (none, .error (.service (.timedOut reason)))
  | .unreachable reason => (none, .error (.service (.unreachable reason)))
  | .answer status body =>
    if ! d.isNamed then (none, .error (.address .schemeless))
    else
      (some (d.address, status),
        if 300 ≤ status then .error (.service (.refused status))
        else
          match Json.ofMessage nesting body with
          | .ok v => .ok v
          | .error .malformed => .error (.service (.notJson status))
          | .error .tooDeep => .error .tooDeep)

/-- A result of reading data, as the result of a call. -/
def ofData {α : Type} (r : Except DataFault α) : Call α :=
  match r with
  | .ok a => pure a
  | .error e => throw (.data e)

/-- Fetches the value at an endpoint, with parameters where they are given. -/
def fetch (endpoint : Text) (parameters : Option (List (Text × Text))) : Call Json := do
  let s ← get
  match s.locate endpoint parameters with
  | .error e =>
    set (s.withStep { endpoint })
    throw (.address e)
  | .ok destination =>
    if s.isOpen then
      let (answer, result) := readReply s.nesting destination (s.replies.headD noReply)
      set { s.withStep ⟨endpoint, some (s.requestTo destination), answer⟩ with
        replies := s.replies.tail }
      match result with
      | .ok v => return v
      | .error e => throw e
    else
      set (s.withStep { endpoint })
      throw .closed

def filePath (fileKey : Text) : Text := "/files/" ++ fileKey

/-- Fetches a file. -/
def getFile (fileKey : Text) : Call DesignFile := do
  let body ← fetch (filePath fileKey) none
  ofData (DesignFile.ofJson body)

/-- The nodes in an answer; entries without a document are left out. -/
def nodesOf : List (Text × Json) → Except DataFault (List (Text × Node))
  | [] => .ok []
  | (id, entry) :: rest => do
    if entry.truthy then
      let document := Json.fieldOrNull (← entry.fields?) "document"
      if document.truthy then
        let node ← Node.ofJson document
        return (id, node) :: (← nodesOf rest)
      else nodesOf rest
    else nodesOf rest

/-- The fields of the value in a field, none when it is missing or empty. -/
def innerFields (body : Json) (key : Text) : Except DataFault (List (Text × Json)) := do
  let inner := Json.fieldOrNull (← body.fields?) key
  if inner.truthy then inner.fields? else return []

/-- Fetches nodes of a file; the ones that the service does not know are left out. -/
def getNodes (fileKey : Text) (ids : List Text) : Call (OrderedMap Text Node) := do
  let body ← fetch (filePath fileKey ++ "/nodes") (some [("ids", join [','] ids)])
  ofData do return .ofList (← nodesOf (← innerFields body "nodes"))

/-- The text of a parameter of a request. -/
def parameterText : Json → Text
  | .null => []
  | .bool b => if b then "true" else "false"
  | v => v.display

/-- The parameters that a value gives: one for each item of an array, and otherwise one. -/
def parametersOf (name : Text) : Json → List (Text × Text)
  | .arr items => items.map fun v => (name, parameterText v)
  | v => [(name, parameterText v)]

/-- Fetches the addresses of rendered images. -/
def getImages (fileKey : Text) (ids : List Text) (format scale : Json) :
    Call (OrderedMap Key Json) := do
  let options := parametersOf "format" format ++ parametersOf "scale" scale
  let body ← fetch ("/images/" ++ fileKey) (some (("ids", join [','] ids) :: options))
  let fields ← ofData body.fields?
  let reason := Json.fieldOrNull fields "err"
  if reason.truthy then throw (.service (.notRendered reason))
  ofData (DesignFile.mapOf fields "images")

def close : Call Unit := modify fun s => { s with isOpen := false }

end Session

end StyleScaffold.Remote
