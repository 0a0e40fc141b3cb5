import StyleScaffold.Css.Declaration
import StyleScaffold.Design.Node

/-!
# Nodes as declarations

The look of a node is described by declarations: the arrangement of a container first, then the
type of a text or the paints of a surface, and the size of the box last. Of several paints the
first visible solid one counts. Lengths have six significant digits.
-/

namespace StyleScaffold.Design

open Text

def pixels (x : Binary64) : Text := x.rounded ++ "px"

def entry (property value : Text) : Text × Text := (property, value)

/-- Rows of a table. -/
def alignTable (rows : List (String × String)) : List (Text × Text) :=
  rows.map fun (k, v) => (k, v)

/-- The alignments along the main axis. -/
def primaryAlignments : List (Text × Text) :=
  alignTable [("MIN", "flex-start"), ("CENTER", "center"), ("MAX", "flex-end"),
    ("SPACE_BETWEEN", "space-between")]

/-- The alignments across the main axis. -/
def counterAlignments : List (Text × Text) :=
  alignTable [("MIN", "flex-start"), ("CENTER", "center"), ("MAX", "flex-end"),
    ("BASELINE", "baseline")]

/-- The alignments of text. -/
def textAlignments : List (Text × Text) :=
  alignTable [("LEFT", "left"), ("CENTER", "center"), ("RIGHT", "right"),
    ("JUSTIFIED", "justify")]

/-- The declaration of an alignment, if the value names one; arrays and objects cannot be looked
up. -/
def alignment (property : Text) (names : List (Text × Text)) (v : Json) :
    Except DataFault (List (Text × Text)) :=
  match v with
  | .str s => .ok ((names.lookup s).map fun value => (property, value)).toList
  | .arr _ => .error .unsuitable
  | .obj _ => .error .unsuitable
  | _ => .ok []

/-- Whether the paint is solid and has a colour. -/
def Paint.solid? (p : Paint) : Option Color := if p.type.isText "SOLID" then p.color else none

/-- The colour of the first visible solid paint. -/
def solidColor? (paints : List Paint) : Option Color :=
  paints.findSome? fun p => if p.visible.truthy then p.solid? else none

/-- The declaration of the colour of paints, if they have one. -/
def paintDeclaration (property : Text) (paints : List Paint) :
    Except DataFault (List (Text × Text)) :=
  match solidColor? paints with
  | none => .ok []
  | some color => do return [(property, ← color.hexText.mapError .number)]

/-- The declarations of an arrangement. -/
def AutoLayout.style (l : AutoLayout) : Except DataFault (List (Text × Text)) := do
  let direction : Text := match l.direction with
    | .horizontal => "row"
    | .vertical => "column"
  let primary ← alignment "justify-content" primaryAlignments l.primaryAlign
  let counter ← alignment "align-items" counterAlignments l.counterAlign
  let gap := if l.gap.isNonzero then [entry "gap" (pixels l.gap)] else []
  let sides := [l.top, l.right, l.bottom, l.left]
  let padding :=
    if sides.any (·.isNonzero) then [entry "padding" (join [' '] (sides.map pixels))] else []
  return [entry "display" "flex", entry "flex-direction" direction] ++ primary ++ counter ++ gap
    ++ padding

/-- The declarations of a text's style and colour. -/
def TextStyle.style (fills : List Paint) (s : TextStyle) :
    Except DataFault (List (Text × Text)) := do
  let color ← paintDeclaration "color" fills
  let size := (s.size.map fun x => entry "font-size" (pixels x)).toList
  let weight := (s.weight.map fun w => entry "font-weight" (ofInt w.value)).toList
  let align ← alignment "text-align" textAlignments s.align
  return color ++ size ++ weight ++ align

/-- The declaration of a border, if there is a visible solid stroke. A weight that is missing or
zero counts as one. -/
def Surface.border (s : Surface) : Except DataFault (List (Text × Text)) :=
  match solidColor? s.strokes with
  | none => .ok []
  | some color => do
    let hex ← color.hexText.mapError .number
    let weight := (s.strokeWeight.filter (·.isNonzero)).getD .one
    return [entry "border" (pixels weight ++ " solid " ++ hex)]

/-- The declarations of a surface. -/
def Surface.style (s : Surface) : Except DataFault (List (Text × Text)) := do
  let fill ← paintDeclaration "background-color" s.fills
  let border ← s.border
  let radius := ((s.cornerRadius.filter (·.isNonzero)).map fun x =>
    entry "border-radius" (pixels x)).toList
  return fill ++ border ++ radius

/-- The declarations of a box. -/
def Box.style (b : Box) : List (Text × Text) :=
  [entry "width" (pixels b.width), entry "height" (pixels b.height)]

/-- The declarations of what a node holds, without those of its box. -/
def Content.look : Content → Except DataFault (List (Text × Text))
  | .container surface (some layout) => do return (← layout.style) ++ (← surface.style)
  | .container surface none => surface.style
  | .shape surface => surface.style
  | .text _ fills _ style => style.style fills
  | _ => .ok []

/-- The declarations that describe a node. -/
def Node.declarations (n : Node) : Except DataFault Css.Declarations := do
  let look ← n.content.look
  return .ofList (look ++ (n.content.box?.map Box.style).getD [])

end StyleScaffold.Design
