import StyleScaffold.Command.Library
import StyleScaffold.Design.Conversion
import StyleScaffold.Remote.Client
import StyleScaffold.Stylesheet

/-!
# What a run reports

Beside what it prints a run may report its steps, one on a line, with the level and the source of
each: declarations that contribute no class, finished components, requests and what they were
answered. A report ends at the step that failed.
-/

namespace StyleScaffold.Command

open Text Remote Design

/-- The text with each surrogate written by its number. -/
def withEscapedHalves (s : Text) : Text :=
  s.flatMap fun c =>
    match c with
    | .char _ => [c]
    | .surrogate _ => "\\u" ++ hex 4 c.toNat

/-- A line of the report. -/
def reportLine (level source message : Text) : Text :=
  level ++ " " ++ source ++ ": " ++ message ++ "\n"

/-- The report on declarations that contribute no class. -/
def unmatchedReport (policies : Policies) (ds : Css.Declarations) : Text :=
  (Utility.unmatched policies ds.entries).flatMap fun (property, value) =>
    reportLine "DEBUG" "figwind.translate.translator"
      ("No utility class for declaration " ++ property ++ ": " ++ value)

/-- The report on blocks, up to the first one that cannot be converted. -/
def blocksReport (policies : Policies) : List Text → Text
  | [] => []
  | block :: rest =>
    unmatchedReport policies (Css.declarations block) ++
      match convertBlock policies block with
      | .ok _ => blocksReport policies rest
      | .error _ => []

/-- The report on a finished component. -/
def componentReport (c : Component) : Text :=
  reportLine "DEBUG" "figwind.pipeline"
    ("Processed " ++ c.name ++ ": " ++ ofNat c.declarations.size ++ " declarations -> " ++
      ofNat c.classes.length ++ " classes")

/-- The report on a step of a session. -/
def Library.stepReport (lib : Library) (step : Step) : Text :=
  reportLine "INFO" "figwind.figma.client" ("Figma request: GET " ++ step.endpoint) ++
    match step.answer with
    | some (address, status) => lib.answered address status
    | none => []

def Library.sessionReport (lib : Library) (s : Session) : Text := s.steps.flatMap lib.stepReport

/-- The report on nodes that are converted, up to the first one that cannot be. -/
def nodesReport (policies : Policies) : List Node → Text
  | [] => []
  | n :: rest =>
    match n.declarations with
    | .error _ => []
    | .ok ds =>
      unmatchedReport policies ds ++
        match n.toComponent policies with
        | .ok _ => nodesReport policies rest
        | .error _ => []

/-- The report on the components of a document. -/
def documentReport (policies : Policies) (document : Node) : Text :=
  nodesReport policies (document.walk.filter Node.isComponent) ++
    match document.components policies with
    | .ok components =>
      reportLine "DEBUG" "figwind.figma.convert"
        ("Converted " ++ ofNat components.length ++ " Figma components")
    | .error _ => []

end StyleScaffold.Command
