import StyleScaffold.Design.Node

/-!
# Reading design documents

A node is read from an object. Its children are read first, then its own data in a fixed order,
and the first value that does not fit decides the fault. Missing and empty values count as
absent where the data is optional.
-/

namespace StyleScaffold.Design

open Json

/-- A number that may be absent. -/
def optionalFloat (fields : List (Text × Json)) (key : Text) : Except DataFault (Option Binary64) :=
  match fieldOrNull fields key with
  | .null => .ok none
  | v => v.toFloat.map some

/-- A number with a default of zero. -/
def floatOrZero (fields : List (Text × Json)) (key : Text) : Except DataFault Binary64 :=
  (fieldOr fields key (.int 0)).toFloat

namespace Paint

/-- The paint that an object gives. An empty colour counts as none. -/
def ofJson (v : Json) : Except DataFault Paint := do
  let fields ← v.fields?
  let color := fieldOrNull fields "color"
  let color ← if color.truthy then (Color.ofJson color).map some else pure none
  return ⟨fieldOr fields "type" (.str []), color, fieldOr fields "visible" (.bool true)⟩

/-- The paints in a field. -/
def listOf (fields : List (Text × Json)) (key : Text) : Except DataFault (List Paint) := do
  let v := fieldOrNull fields key
  if v.truthy then (← v.parts).mapM ofJson else return []

end Paint

namespace Box

/-- The box of a node, if it has one that is not empty. -/
def ofFields (fields : List (Text × Json)) : Except DataFault (Option Box) := do
  let v := fieldOrNull fields "absoluteBoundingBox"
  if v.truthy then
    let box ← v.fields?
    let x ← floatOrZero box "x"
    let y ← floatOrZero box "y"
    let width ← floatOrZero box "width"
    let height ← floatOrZero box "height"
    return some ⟨x, y, width, height⟩
  else return none

end Box

/-- The direction that a value names. -/
def Direction.ofJson? (v : Json) : Option Direction :=
  if v.isText "HORIZONTAL" then some .horizontal
  else if v.isText "VERTICAL" then some .vertical
  else none

namespace AutoLayout

/-- The arrangement of a container, if it names a direction. -/
def ofFields (fields : List (Text × Json)) : Except DataFault (Option AutoLayout) := do
  match Direction.ofJson? (fieldOrNull fields "layoutMode") with
  | none => return none
  | some direction =>
    let gap ← floatOrZero fields "itemSpacing"
    let top ← floatOrZero fields "paddingTop"
    let right ← floatOrZero fields "paddingRight"
    let bottom ← floatOrZero fields "paddingBottom"
    let left ← floatOrZero fields "paddingLeft"
    return some ⟨direction, gap, top, right, bottom, left,
      fieldOr fields "primaryAxisAlignItems" (.str "MIN"),
      fieldOr fields "counterAxisAlignItems" (.str "MIN")⟩

end AutoLayout

namespace TextStyle

/-- The style of a text; an empty one has no size and no weight. -/
def ofFields (fields : List (Text × Json)) : Except DataFault TextStyle := do
  let v := fieldOrNull fields "style"
  let style ← if v.truthy then v.fields? else pure []
  let size ← optionalFloat style "fontSize"
  let weight ←
    match fieldOrNull style "fontWeight" with
    | .null => pure none
    | v => (v.toInt >>= Weight.ofInt?).map some
  return ⟨fieldOr style "fontFamily" (.str []), size, weight,
    fieldOr style "textAlignHorizontal" (.str [])⟩

end TextStyle

namespace Surface

/-- Paints, stroke weight, box and corner radius. -/
def ofFields (fields : List (Text × Json)) : Except DataFault Surface := do
  let fills ← Paint.listOf fields "fills"
  let strokes ← Paint.listOf fields "strokes"
  let strokeWeight ← optionalFloat fields "strokeWeight"
  let box ← Box.ofFields fields
  let cornerRadius ← optionalFloat fields "cornerRadius"
  return ⟨fills, strokes, strokeWeight, box, cornerRadius⟩

end Surface

/-- The kinds of content. -/
inductive ContentKind where
  | page
  | container
  | shape
  | text
  | unknown
  deriving DecidableEq, Repr

/-- The kind of content that nodes of a type have. -/
def NodeType.kind : NodeType → ContentKind
  | .document | .canvas => .page
  | .section | .frame | .group | .component | .componentSet | .componentInstance => .container
  | .rectangle | .ellipse | .vector | .line | .star | .polygon | .booleanOperation => .shape
  | .text => .text
  | .other => .unknown

namespace Content

/-- The content of a node of the given kind. -/
def ofFields (kind : ContentKind) (fields : List (Text × Json)) : Except DataFault Content := do
  match kind with
  | .page => return .page
  | .container =>
    let surface ← Surface.ofFields fields
    return .container surface (← AutoLayout.ofFields fields)
  | .shape => return .shape (← Surface.ofFields fields)
  | .text =>
    let fills ← Paint.listOf fields "fills"
    let box ← Box.ofFields fields
    return .text (fieldOr fields "characters" (.str [])) fills box (← TextStyle.ofFields fields)
  | .unknown => return .unknown (fieldOr fields "type" (.str []))

end Content

namespace Node

/-- The node with the given fields and children. -/
def ofFields (fields : List (Text × Json)) (children : List Node) : Except DataFault Node := do
  let type := NodeType.ofJson (fieldOr fields "type" (.str []))
  let content ← Content.ofFields type.kind fields
  return mk (fieldOr fields "id" (.str [])) (fieldOr fields "name" (.str [])) type content children

/-- What is wrong with children that are no array: an empty value has no children, the parts of
a text or an object are no nodes, and other values have no parts. -/
def childrenFault : Json → Except DataFault (List Node)
  | .str (_ :: _) => .error .notAnObject
  | .obj (_ :: _) => .error .notAnObject
  | v => if v.truthy then .error .unsuitable else .ok []

mutual

/-- The node that an object gives. -/
def ofJson : Json → Except DataFault Node
  | .obj fields => do ofFields fields (← childrenOfFields fields)
  | _ => .error .notAnObject

/-- The children named in a list of fields. -/
def childrenOfFields : List (Text × Json) → Except DataFault (List Node)
  | [] => .ok []
  | (k, v) :: rest => if k = "children" then childrenOfJson v else childrenOfFields rest

/-- The children that a value gives. -/
def childrenOfJson : Json → Except DataFault (List Node)
  | .arr items => ofItems items
  | v => childrenFault v

/-- The nodes that the items of an array give. -/
def ofItems : List Json → Except DataFault (List Node)
  | [] => .ok []
  | v :: vs => do
    let node ← ofJson v
    return node :: (← ofItems vs)

end

end Node

/-- A document with what is published beside it. -/
structure DesignFile where
  name : Json
  document : Node
  lastModified : Json
  version : Json
  components : OrderedMap Key Json
  styles : OrderedMap Key Json

namespace DesignFile

/-- The map in a field; an empty value gives an empty map. -/
def mapOf (fields : List (Text × Json)) (key : Text) : Except DataFault (OrderedMap Key Json) :=
  let v := fieldOrNull fields key
  if v.truthy then v.toMap else .ok .empty

/-- The file that an object gives; without a document it holds an empty one. -/
def ofJson (v : Json) : Except DataFault DesignFile := do
  let fields ← v.fields?
  let document := fieldOrNull fields "document"
  let document ←
    Node.ofJson (if document.truthy then document else .obj [("type", .str "DOCUMENT")])
  let components ← mapOf fields "components"
  let styles ← mapOf fields "styles"
  return ⟨fieldOr fields "name" (.str []), document, fieldOr fields "lastModified" (.str []),
    fieldOr fields "version" (.str []), components, styles⟩

end DesignFile

end StyleScaffold.Design
