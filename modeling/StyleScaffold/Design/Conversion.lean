import StyleScaffold.Component.TokenModule
import StyleScaffold.Design.Reader
import StyleScaffold.Design.Style
import StyleScaffold.Json.Display
import StyleScaffold.Utility.Classes

/-!
# Components and tokens of a design

Every component and every frame of a document becomes a list of utility classes, in the order of
a walk through the document.

Design tokens come from two sources: published styles are listed under their names with their
keys, and nodes list their solid fills, text styles and sizes under names made from their own. A
later entry of one name replaces an earlier one.
-/

namespace StyleScaffold.Design

open Text

/-- A child as its parent lists it. -/
structure ChildLabel where
  id : Json
  name : Json
  type : NodeType

/-- A component or a frame with its declarations and classes. -/
structure DesignComponent where
  id : Json
  name : Json
  type : NodeType
  declarations : Css.Declarations
  classes : List Text
  children : List ChildLabel

namespace Node

/-- Whether nodes of the type are converted on their own. -/
def isComponent (n : Node) : Bool := n.type = .component || n.type = .frame

def label (n : Node) : ChildLabel := ⟨n.id, n.name, n.type⟩

/-- The node with its classes. -/
def toComponent (policies : Policies) (n : Node) : Except DataFault DesignComponent := do
  let declarations ← n.declarations
  let classes ← (Utility.classes policies declarations).mapError .number
  return ⟨n.id, n.name, n.type, declarations, classes, n.children.map label⟩

/-- The components and frames of a document. -/
def components (policies : Policies) (document : Node) : Except DataFault (List DesignComponent) :=
  (document.walk.filter isComponent).mapM (toComponent policies)

end Node

/-- The tokens with a published style: its name, and the key it is published under. -/
def addStyle (tokens : DesignTokens) (entry : Key × Json) : Except DataFault DesignTokens := do
  let fields ← entry.2.fields?
  let type := Json.fieldOrNull fields "styleType"
  let name := Json.fieldOr fields "name" entry.1.toJson
  let key := entry.1.toJson
  if type.isText "FILL" then
    return { tokens with colors := tokens.colors.insert (← name.toKey) key }
  else if type.isText "TEXT" then
    return { tokens with typography := tokens.typography.insert (← name.toKey) key }
  else if type.isText "EFFECT" then
    return { tokens with effects := tokens.effects.insert (← name.toKey) key }
  else return tokens

namespace Node

/-- A name made from the node's own. -/
def tokenName (n : Node) (ending : Text) : Key := .text (n.name.display ++ ending)

/-- The solid fills of a node under their numbers. -/
def fillTokens (n : Node) : Except DataFault (List (Key × Json)) :=
  (n.content.fills.zipIdx.filterMap fun (paint, i) => paint.solid?.map (·, i)).mapM
    fun (color, i) => do
      let hex ← color.hexText.mapError .number
      return (n.tokenName ("-fill-" ++ ofNat i), .str hex)

def typographyField (key : Text) (value : Json) : List (Text × Json) := [(key, value)]

/-- The style of a text with a size, as an object. -/
def typographyValue? (n : Node) : Option Json :=
  match n.content with
  | .text _ _ _ style =>
    style.size.map fun size =>
      .obj (typographyField "fontSize" (.str (pixels size))
        ++ (style.weight.elim [] fun w => typographyField "fontWeight" (.str (ofInt w.value)))
        ++ (if style.family.truthy then typographyField "fontFamily" style.family else []))
  | _ => none

/-- The type style of a node under its name. -/
def typographyTokens (n : Node) : Except DataFault (List (Key × Json)) :=
  match n.typographyValue? with
  | none => .ok []
  | some value => do return [(← n.name.toKey, value)]

/-- The size of a node under its name. -/
def spacingTokens (n : Node) : List (Key × Json) :=
  match n.content.box? with
  | none => []
  | some box =>
    [(n.tokenName "-width", .str (pixels box.width)),
      (n.tokenName "-height", .str (pixels box.height))]

end Node

/-- The tokens with those of a node. -/
def addNode (tokens : DesignTokens) (n : Node) : Except DataFault DesignTokens := do
  let fills ← n.fillTokens
  let typography ← n.typographyTokens
  return { tokens with
    colors := tokens.colors.insertAll fills
    typography := tokens.typography.insertAll typography
    spacing := tokens.spacing.insertAll n.spacingTokens }

/-- The tokens of a document and its published styles. -/
def designTokens (document : Node) (styles : OrderedMap Key Json) :
    Except DataFault DesignTokens := do
  let published ← styles.entries.foldlM addStyle {}
  document.walk.foldlM addNode published

end StyleScaffold.Design
