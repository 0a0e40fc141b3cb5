import StyleScaffold.Command.Library
import StyleScaffold.Command.Report
import StyleScaffold.Css.Analysis
import StyleScaffold.Design.Link

/-!
# Runs of the program

A run takes the words of the command line and the world around it: the environment, the standard
input, the files and what the network will answer. Its outcome holds everything that a run
leaves behind: the exit code, what was printed, the files, and the requests that were made.

The exit code is 1 for everything that goes wrong when an order is carried out; faults that the
program foresees are printed, and others end the run as a crash with a cause.
-/

namespace StyleScaffold.Command

open Text Remote Design

/-- What a run leaves behind. -/
structure Outcome extends Ending where
  workspace : Workspace
  asked : List Request := []

/-- A run that ends early with a message, or with a crash. -/
inductive Stop where
  | message (text : Text)
  | crash (cause : Crash)

/-- The file that an order names for its output; an empty name counts as none. -/
def outputFile? (output : Option Text) : Option Text := output.filter fun s => ! s.isEmpty

/-! ## Outcomes -/

namespace Library

variable (lib : Library)

/-- The outcome of a run that stopped early, with a report in front. -/
def stopped (w : World) (report : Text) (asked : List Request) : Stop → Outcome
  | .message text =>
    { exitCode := 1, errors := withEscapedHalves (report ++ lib.line text)
      workspace := w.workspace, asked }
  | .crash cause =>
    { exitCode := 1, crash := some cause, errors := withEscapedHalves report
      workspace := w.workspace, asked }

/-- The outcome of a run that has a text for the standard output, which takes no half of a
surrogate pair. -/
def shown (w : World) (report : Text) (asked : List Request) (content : Text) : Outcome :=
  if (lib.line content).isWellFormed then
    { output := lib.line content, errors := withEscapedHalves report, workspace := w.workspace
      asked }
  else lib.stopped w report asked (.crash .unencodable)

/-- The outcome of a run that has a text to deliver: to a file where one is named, and otherwise
to the standard output. The file is there even if the text has no bytes. -/
def delivered (w : World) (report : Text) (asked : List Request) (output : Option Text)
    (content : Text) : Outcome :=
  match outputFile? output with
  | none => lib.shown w report asked content
  | some name =>
    match w.workspace.write name ((encode? (content ++ "\n")).getD []) with
    | .error f => lib.stopped w report asked (.crash (.file f))
    | .ok workspace =>
      if content.isWellFormed then
        { errors := withEscapedHalves (report ++ lib.line ("Wrote " ++ name)), workspace, asked }
      else lib.stopped { w with workspace } report asked (.crash .unencodable)

/-- The outcome of a run that delivers a text or stops. -/
def finished (w : World) (report : Text) (asked : List Request) (output : Option Text) :
    Except Stop Text → Outcome
  | .ok content => lib.delivered w report asked output content
  | .error stop => lib.stopped w report asked stop

end Library

/-- The settings of the environment, or a message. -/
def settings (w : World) : Except Stop Settings :=
  (Settings.ofEnvironment w.environment).mapError fun f =>
    .message ("Configuration error: " ++ f.message)

/-- The settings of the environment with overrides in place. -/
def settingsWith (w : World) (overrides : Overrides) : Except Stop Settings := do
  let s ← settings w
  return { s with
    conversion := { s.conversion with policies := overrides.apply s.conversion.policies } }

/-- The text in bytes, with all line ends alike. -/
def sourceText (bytes : List UInt8) : Except Stop Text :=
  match decode? bytes with
  | some s => .ok (universalBreaks s)
  | none => .error (.crash .notText)

/-! ## Conversion -/

/-- How a stylesheet's fault ends a run. -/
def stylesheetStop : StylesheetFault → Stop
  | .number f => .crash (.number f)
  | f => .message ("Error: " ++ f.message)

/-- A component in a format. -/
def renderComponent (c : Component) : Format → Text
  | .react => c.scriptCode
  | .html => c.markup
  | .css => c.declarationsRule
  | .classes => c.classText
  | _ => c.toJson.indented

/-- A converted block on a line. -/
def blockLine (b : ConvertedBlock) : Text :=
  let selector : Text := if b.selector.isEmpty then "(no selector)" else b.selector
  selector ++ ": " ++ join [' '] b.classes

/-- The converted stylesheet in a format. -/
def convertedText (settings : ConversionSettings) (format : Format) (sheet : Text) :
    Except Stop Text :=
  if format = .blocks then
    match convertStylesheet settings.policies sheet with
    | .ok blocks => .ok (join ['\n'] (blocks.map blockLine))
    | .error f => .error (stylesheetStop f)
  else
    match componentOfStylesheet settings sheet with
    | .ok c => .ok (renderComponent c format)
    | .error f => .error (stylesheetStop f)

/-- The report on a conversion. -/
def conversionReport (settings : ConversionSettings) (format : Format) (sheet : Text) : Text :=
  match requiredBlocks sheet with
  | .error _ => []
  | .ok blocks =>
    if format = .blocks then blocksReport settings.policies blocks
    else
      blocksReport settings.policies (blocks.take 1) ++
        match componentOfStylesheet settings sheet with
        | .ok c => componentReport c
        | .error _ => []

/-- Converts a stylesheet. -/
def Library.convert (lib : Library) (w : World) (verbose : Bool) (bytes : List UInt8)
    (format : Format) (output : Option Text) (overrides : Overrides) : Outcome :=
  match (do return (← settingsWith w overrides, ← sourceText bytes)) with
  | .error stop => lib.stopped w [] [] stop
  | .ok (settings, sheet) =>
    let report := if verbose then conversionReport settings.conversion format sheet else []
    lib.finished w report [] output (convertedText settings.conversion format sheet)

/-! ## Analysis -/

/-- A heading with a count, and the lines below it. -/
def listing (title : Text) (lines : List Text) : List Text :=
  (title ++ " (" ++ ofNat lines.length ++ "):") :: lines.map ("  " ++ ·)

/-- What was found in a stylesheet, line by line. -/
def analysisLines (a : Css.Analysis) : List Text :=
  listing "Variables" (a.customProperties.entries.map fun (k, v) => "--" ++ k ++ ": " ++ v) ++
    listing "Media queries" a.mediaQueries ++
    listing "Animations" a.animations ++
    listing "Colors" (a.colorPalette.entries.map fun (k, v) => k ++ ": " ++ v)

/-- Analyses or minifies a stylesheet. -/
def Library.analyze (lib : Library) (w : World) (bytes : List UInt8) (minified : Bool) : Outcome :=
  match sourceText bytes with
  | .error stop => lib.stopped w [] [] stop
  | .ok sheet =>
    { output := if minified then lib.line (Css.minify sheet)
        else (analysisLines (Css.analyze sheet)).flatMap lib.line
      workspace := w.workspace }

/-! ## Designs -/

/-- A call in which the program may also stop. -/
abbrev DesignCall (α : Type) := ExceptT Stop (StateM Session) α

/-- How the fault of a call ends a run. -/
def callStop : CallFault → Stop
  | .service f => .message ("Error: " ++ f.message)
  | .data f => .crash (.data f)
  | .address f => .crash (.address f)
  | .tooDeep => .crash .tooDeep
  | .closed => .crash .closed

/-- A call to the service. -/
def calling {α : Type} (c : Call α) : DesignCall α := fun s =>
  let (result, s) := c.run.run s
  (result.mapError callStop, s)

/-- Fetches the file of a link, and the node in it that is meant. -/
def fetchDesign (link : Link) : DesignCall (DesignFile × Node) := do
  let file ← calling (Session.getFile link.fileKey)
  match link.nodeId with
  | none => return (file, file.document)
  | some id =>
    let nodes ← calling (Session.getNodes link.fileKey [id])
    match nodes.get? id with
    | some node => return (file, node)
    | none => throw (.message ("Error: node " ++ id ++ " not found"))

/-- A component of a design on a line. -/
def designLine (c : DesignComponent) : Text :=
  "  " ++ c.name.display ++ " [" ++ c.type.name ++ "] " ++ join [' '] c.classes

/-- The components of a design, line by line. -/
def componentsText (policies : Policies) (file : DesignFile) (document : Node) :
    Except DataFault Text := do
  let components ← document.components policies
  return join ['\n'] (("File: " ++ file.name.display) ::
    ("Components: " ++ ofNat components.length) :: components.map designLine)

/-- The text that is asked of a design. -/
def designText (policies : Policies) (tokens : Bool) (file : DesignFile) (document : Node) :
    Except Stop Text :=
  (if tokens then (designTokens document file.styles).map DesignTokens.moduleText
    else componentsText policies file document).mapError fun f => .crash (.data f)

/-- Fetches a design and converts it. -/
def Library.design (lib : Library) (w : World) (verbose : Bool) (url token : Text) (tokens : Bool)
    (output : Option Text) (overrides : Overrides) : Outcome :=
  match settingsWith w overrides with
  | .error stop => lib.stopped w [] [] stop
  | .ok settings =>
    match Link.parse? url with
    | none => lib.stopped w [] [] (.message ("Error: " ++ Link.faultMessage url))
    | some link =>
      let policies := settings.conversion.policies
      match lib.connect settings.apiBase token with
      | .error f => lib.stopped w [] [] (.crash (.address f))
      | .ok locate =>
        let (fetched, session) := (fetchDesign link).run.run
          { locate, token, replies := w.replies, nesting := w.nesting }
        let requests := if verbose then lib.sessionReport session else []
        match fetched with
        | .error stop => lib.stopped w requests session.asked stop
        | .ok (file, document) =>
          let report :=
            if verbose && ! tokens then requests ++ documentReport policies document else requests
          lib.finished w report session.asked output (designText policies tokens file document)

/-! ## Service -/

/-- Announces the service. An empty host and the socket zero count as not given. -/
def Library.serve (lib : Library) (w : World) (host : Option Text) (socket : Option Int) :
    Outcome :=
  match settings w with
  | .error stop => lib.stopped w [] [] stop
  | .ok settings =>
    let host := (host.filter fun h => ! h.isEmpty).getD settings.host
    let socket := (socket.filter (· ≠ 0)).getD settings.socket
    lib.shown w [] [] ("Starting figwind on " ++ host ++ ":" ++ ofInt socket)

/-! ## Runs -/

namespace Library

variable (lib : Library)

/-- The outcome of an order. -/
def perform (w : World) (verbose : Bool) : Order → Outcome
  | .convert source format output overrides =>
    lib.convert w verbose source format output overrides
  | .analyze source minified => lib.analyze w source minified
  | .design url token tokens output overrides =>
    lib.design w verbose url token tokens output overrides
  | .serve host socket => lib.serve w host socket

/-- The outcome of what a command line came to. -/
def follow (w : World) : Reading → Outcome
  | .order verbose order => lib.perform w verbose order
  | .ended ending => { ending with workspace := w.workspace }

/-- The outcome of a command line. -/
def run (w : World) (line : List Text) : Outcome := lib.follow w (lib.read w line)

end Library

end StyleScaffold.Command
