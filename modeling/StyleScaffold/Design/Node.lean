import StyleScaffold.Design.Color

/-!
# Nodes of a design document

A design document is a tree of nodes. What a node has beside its children depends on its type:
containers and shapes have paints, a box and a corner radius, containers may arrange their
children, texts have characters and a style, and pages and nodes of other types have nothing.

Names, identifiers and switches are kept as they came, whatever kind of value they are.
-/

namespace StyleScaffold.Design

/-- The types of nodes. -/
inductive NodeType where
  | document
  | canvas
  | section
  | frame
  | group
  | component
  | componentSet
  | componentInstance
  | text
  | rectangle
  | ellipse
  | vector
  | line
  | star
  | polygon
  | booleanOperation
  | other
  deriving DecidableEq, Repr

namespace NodeType

/-- The types with their names in documents. -/
def names : List (NodeType × Text) :=
  [(document, "DOCUMENT"), (canvas, "CANVAS"), («section», "SECTION"), (frame, "FRAME"),
    (group, "GROUP"), (component, "COMPONENT"), (componentSet, "COMPONENT_SET"),
    (componentInstance, "INSTANCE"), (text, "TEXT"), (rectangle, "RECTANGLE"),
    (ellipse, "ELLIPSE"), (vector, "VECTOR"), (line, "LINE"), (star, "STAR"),
    (polygon, "POLYGON"), (booleanOperation, "BOOLEAN_OPERATION"), (other, "OTHER")]

def name (t : NodeType) : Text := (names.lookup t).getD []

/-- The type that a value names; values that name none are of the other type. -/
def ofJson (v : Json) : NodeType :=
  match names.find? fun row => v.isText row.2 with
  | some row => row.1
  | none => other

end NodeType

/-- A fill or a stroke. Only solid ones have a colour. -/
structure Paint where
  type : Json
  color : Option Color
  visible : Json

/-- Where a node lies and how large it is. -/
structure Box where
  x : Binary64
  y : Binary64
  width : Binary64
  height : Binary64
  deriving DecidableEq, Repr

/-- The direction in which a container arranges its children. -/
inductive Direction where
  | horizontal
  | vertical
  deriving DecidableEq, Repr

/-- How a container arranges its children. -/
structure AutoLayout where
  direction : Direction
  gap : Binary64
  top : Binary64
  right : Binary64
  bottom : Binary64
  left : Binary64
  primaryAlign : Json
  counterAlign : Json

/-- The weight of a font, a whole number that can be written in digits. -/
structure Weight where
  value : Int
  bounded : value.natAbs < Literal.integerLimit

/-- The weight with a value. A number that is read from a text is never too large. -/
def Weight.ofInt? (n : Int) : Except DataFault Weight :=
  if h : n.natAbs < Literal.integerLimit then .ok ⟨n, h⟩ else .error (.number .tooLarge)

/-- The style of a text. -/
structure TextStyle where
  family : Json
  size : Option Binary64
  weight : Option Weight
  align : Json

/-- What containers and shapes have in common. -/
structure Surface where
  fills : List Paint
  strokes : List Paint
  strokeWeight : Option Binary64
  box : Option Box
  cornerRadius : Option Binary64

/-- What a node has beside its children. -/
inductive Content where
  | page
  | container (surface : Surface) (layout : Option AutoLayout)
  | shape (surface : Surface)
  | text (characters : Json) (fills : List Paint) (box : Option Box) (style : TextStyle)
  /-- A node of a type that is not described further. -/
  | unknown (rawType : Json)

namespace Content

/-- The fills, of which pages and unknown nodes have none. -/
def fills : Content → List Paint
  | .container s _ => s.fills
  | .shape s => s.fills
  | .text _ fills _ _ => fills
  | _ => []

/-- The box, if there is one. -/
def box? : Content → Option Box
  | .container s _ => s.box
  | .shape s => s.box
  | .text _ _ box _ => box
  | _ => none

end Content

/-- A node with its children. -/
inductive Node where
  | mk (id name : Json) (type : NodeType) (content : Content) (children : List Node)

namespace Node

def id : Node → Json
  | mk id _ _ _ _ => id

def name : Node → Json
  | mk _ name _ _ _ => name

def type : Node → NodeType
  | mk _ _ type _ _ => type

def content : Node → Content
  | mk _ _ _ content _ => content

def children : Node → List Node
  | mk _ _ _ _ children => children

mutual

/-- The node and everything below it, parents in front of their children. -/
def walk : Node → List Node
  | mk id name type content children => mk id name type content children :: walkAll children

/-- The walks of nodes, one behind the other. -/
def walkAll : List Node → List Node
  | [] => []
  | n :: ns => walk n ++ walkAll ns

end

theorem walkAll_eq_flatMap (ns : List Node) : walkAll ns = ns.flatMap walk := by
  induction ns with
  | nil => rfl
  | cons n ns ih => simp [walkAll, ih]

theorem walk_eq (n : Node) : n.walk = n :: n.children.flatMap walk := by
  cases n
  simp [walk, children, walkAll_eq_flatMap]

end Node

end StyleScaffold.Design
