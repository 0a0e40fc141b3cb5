import StyleScaffold.Design.Conversion
import StyleScaffold.Proofs.Except

/-!
# The tree of a document

The objects of a document are the document itself and, below every object, the objects of the
array of its children, whatever the type of the object (`objects`). `treeInduction` follows that
tree. Reading a document keeps it:

* `kind_ofJson`: what a node holds is decided by the name of its type.
* `map_outline_walk`: the walk through the node that was read passes the objects, each once and
  parents in front of their children, and every node has the identifier, the name, the type, the
  kind and the children of its object.
-/

namespace StyleScaffold

open Text

theorem Json.isText_iff {t : Text} {v : Json} : v.isText t = true ↔ v = .str t := by
  cases v <;> simp [isText]

namespace Design

open Json

/-! ## Objects -/

/-- The items of an array. -/
def items : Json → List Json
  | .arr items => items
  | _ => []

/-- The items of the array of children. -/
def childItems (fields : List (Text × Json)) : List Json := items (fieldOrNull fields "children")

/-- The fields of an object, as the one object that it is. -/
def ownFields : Json → List (List (Text × Json))
  | .obj fields => [fields]
  | _ => []

/-- The children of an object that are objects. -/
def childObjects (fields : List (Text × Json)) : List (List (Text × Json)) :=
  (childItems fields).flatMap ownFields

mutual

/-- The objects of a tree by their fields, parents in front of their children. -/
def objects : Json → List (List (Text × Json))
  | .obj fields => fields :: objectsBelow fields
  | _ => []

/-- The objects of the first field that holds children. -/
def objectsBelow : List (Text × Json) → List (List (Text × Json))
  | [] => []
  | (k, v) :: rest => if k = "children" then objectsIn v else objectsBelow rest

/-- The objects of the items of an array. -/
def objectsIn : Json → List (List (Text × Json))
  | .arr items => objectsAmong items
  | _ => []

/-- The objects of trees, one behind the other. -/
def objectsAmong : List Json → List (List (Text × Json))
  | [] => []
  | v :: vs => objects v ++ objectsAmong vs

end

theorem objectsAmong_eq_flatMap (vs : List Json) : objectsAmong vs = vs.flatMap objects := by
  induction vs with
  | nil => rfl
  | cons v vs ih => rw [objectsAmong, List.flatMap_cons, ih]

theorem objectsIn_eq_flatMap (v : Json) : objectsIn v = (items v).flatMap objects := by
  cases v with
  | arr items => exact objectsAmong_eq_flatMap items
  | _ => rfl

theorem objectsBelow_eq_flatMap (fields : List (Text × Json)) :
    objectsBelow fields = (childItems fields).flatMap objects := by
  induction fields with
  | nil => rfl
  | cons field rest ih =>
    obtain ⟨k, v⟩ := field
    by_cases hKey : k = "children"
    · simp [objectsBelow, childItems, fieldOrNull, lookup, hKey, objectsIn_eq_flatMap]
    · simpa [objectsBelow, childItems, fieldOrNull, lookup, hKey] using ih

/-- The objects of an object: itself, and those of its children. -/
theorem objects_obj (fields : List (Text × Json)) :
    objects (.obj fields) = fields :: (childItems fields).flatMap objects := by
  rw [objects, objectsBelow_eq_flatMap]

theorem sizeOf_lookup_lt {key : Text} {fields : List (Text × Json)} {v : Json}
    (h : lookup key fields = some v) : sizeOf v < sizeOf fields := by
  induction fields with
  | nil => cases h
  | cons field rest ih =>
    obtain ⟨k, w⟩ := field
    simp only [lookup] at h
    split at h
    · cases h
      simp only [List.cons.sizeOf_spec, Prod.mk.sizeOf_spec]
      omega
    · have hRest := ih h
      simp only [List.cons.sizeOf_spec]
      omega

theorem sizeOf_lt_of_mem_childItems {fields : List (Text × Json)} {v : Json}
    (h : v ∈ childItems fields) : sizeOf v < sizeOf fields := by
  unfold childItems fieldOrNull at h
  cases hField : lookup "children" fields with
  | none =>
    rw [hField] at h
    cases h
  | some children =>
    rw [hField] at h
    have hSize := sizeOf_lookup_lt hField
    cases children with
    | arr items =>
      have hItem : sizeOf v < sizeOf items := List.sizeOf_lt_of_mem h
      rw [Json.arr.sizeOf_spec] at hSize
      omega
    | _ => cases h

/-- Induction along the tree: what holds of an object when it holds of its children holds of
every value, if it holds of the values that are no objects. -/
theorem treeInduction {P : Json → Prop}
    (other : ∀ v, ownFields v = [] → P v)
    (obj : ∀ fields, (∀ v ∈ childItems fields, P v) → P (.obj fields)) (v : Json) : P v := by
  induction hSize : sizeOf v using Nat.strongRecOn generalizing v with
  | ind size ih =>
    cases v with
    | obj fields =>
      refine obj fields fun v hv => ih (sizeOf v) ?_ v rfl
      have hItem := sizeOf_lt_of_mem_childItems hv
      rw [Json.obj.sizeOf_spec] at hSize
      omega
    | _ => exact other _ rfl

/-! ## Types -/

/-- The names of the types of pages. -/
def pageNames : List Text := ["DOCUMENT", "CANVAS"]

/-- The names of the types that may arrange their children. -/
def containerNames : List Text :=
  ["SECTION", "FRAME", "GROUP", "COMPONENT", "COMPONENT_SET", "INSTANCE"]

/-- The names of the types of shapes. -/
def shapeNames : List Text :=
  ["RECTANGLE", "ELLIPSE", "VECTOR", "LINE", "STAR", "POLYGON", "BOOLEAN_OPERATION"]

/-- The kind of content that the value of the type calls for. -/
def kindOf (type : Json) : ContentKind :=
  if pageNames.any (type.isText ·) then .page
  else if containerNames.any (type.isText ·) then .container
  else if shapeNames.any (type.isText ·) then .shape
  else if type.isText "TEXT" then .text
  else .unknown

theorem eq_str_name_of_ofJson {v : Json} {t : NodeType} (h : NodeType.ofJson v = t)
    (hOther : t ≠ .other) : v = .str t.name := by
  have hNames : ∀ row ∈ NodeType.names, row.1.name = row.2 := by decide
  unfold NodeType.ofJson at h
  split at h
  · rename_i row hRow
    have hText := List.find?_some (p := fun row : NodeType × Text => v.isText row.2) hRow
    rw [← h, hNames row (List.mem_of_find?_eq_some hRow)]
    exact isText_iff.1 hText
  · exact absurd h.symm hOther

theorem ofJson_name (t : NodeType) : NodeType.ofJson (.str t.name) = t := by
  cases t <;> rfl

theorem ofJson_eq_iff {v : Json} {t : NodeType} (hOther : t ≠ .other) :
    NodeType.ofJson v = t ↔ v.isText t.name = true := by
  rw [isText_iff]
  constructor
  · intro h
    exact eq_str_name_of_ofJson h hOther
  · rintro rfl
    exact ofJson_name t

theorem any_isText_eq_false {v : Json} (h : NodeType.ofJson v = .other) {names : List Text}
    (hNames : ∀ name ∈ names, NodeType.ofJson (.str name) ≠ .other) :
    names.any (v.isText ·) = false := by
  refine List.any_eq_false.2 fun name hName hText => ?_
  rw [isText_iff.1 hText] at h
  exact hNames name hName h

/-- What a node holds is decided by the name of its type. -/
theorem kind_ofJson (v : Json) : (NodeType.ofJson v).kind = kindOf v := by
  by_cases hOther : NodeType.ofJson v = .other
  · have hText : (["TEXT"] : List Text).any (v.isText ·) = false :=
      any_isText_eq_false hOther (by decide)
    rw [List.any_cons, List.any_nil, Bool.or_false] at hText
    rw [hOther, kindOf, any_isText_eq_false hOther (by decide),
      any_isText_eq_false hOther (by decide), any_isText_eq_false hOther (by decide), hText]
    rfl
  · have hName := eq_str_name_of_ofJson rfl hOther
    generalize NodeType.ofJson v = t at hName
    subst hName
    cases t <;> rfl

/-! ## Reading -/

namespace Node

theorem ofItems_eq_mapM (vs : List Json) : ofItems vs = vs.mapM ofJson := by
  induction vs with
  | nil => rfl
  | cons v vs ih =>
    rw [List.mapM_cons, ← ih]
    rfl

theorem childrenOfFields_eq (fields : List (Text × Json)) :
    childrenOfFields fields = childrenOfJson (fieldOrNull fields "children") := by
  induction fields with
  | nil => rfl
  | cons field rest ih =>
    obtain ⟨k, v⟩ := field
    by_cases hKey : k = "children"
    · simp [childrenOfFields, fieldOrNull, lookup, hKey]
    · simpa [childrenOfFields, fieldOrNull, lookup, hKey] using ih

theorem childrenFault_eq_ok {v : Json} {children : List Node}
    (h : childrenFault v = .ok children) : children = [] := by
  unfold childrenFault at h
  split at h
  · cases h
  · cases h
  · split at h
    · cases h
    · cases h
      rfl

/-- Children that can be read are the nodes of the items of their array. -/
theorem mapM_items {v : Json} {children : List Node} (h : childrenOfJson v = .ok children) :
    (items v).mapM ofJson = .ok children := by
  cases v with
  | arr vs => rw [items, ← ofItems_eq_mapM, ← childrenOfJson, h]
  | _ =>
    rw [childrenOfJson] at h
    · rw [childrenFault_eq_ok h]
      rfl
    · exact fun _ hArray => nomatch hArray

theorem exists_fields_of_ofJson {data : Json} {n : Node} (h : ofJson data = .ok n) :
    ∃ fields children, data = .obj fields ∧ (childItems fields).mapM ofJson = .ok children ∧
      ofFields fields children = .ok n := by
  cases data with
  | obj fields =>
    rw [ofJson] at h
    obtain ⟨children, hChildren, hNode⟩ := bind_eq_ok.1 h
    rw [childrenOfFields_eq] at hChildren
    exact ⟨fields, children, rfl, mapM_items hChildren, hNode⟩
  | _ => cases h

end Node

/-! ## Outlines -/

/-- The kind of a node's content. -/
def Content.kind : Content → ContentKind
  | .page => .page
  | .container _ _ => .container
  | .shape _ => .shape
  | .text _ _ _ _ => .text
  | .unknown _ => .unknown

/-- What a node is, without the data of its kind. -/
structure Outline where
  label : ChildLabel
  kind : ContentKind
  children : List ChildLabel

def Node.outline (n : Node) : Outline := ⟨n.label, n.content.kind, n.children.map Node.label⟩

/-- The value of an object's type, the empty text where it is missing. -/
def typeValue (fields : List (Text × Json)) : Json := fieldOr fields "type" (.str [])

/-- The label that an object calls for. -/
def labelOf (fields : List (Text × Json)) : ChildLabel :=
  ⟨fieldOr fields "id" (.str []), fieldOr fields "name" (.str []),
    NodeType.ofJson (typeValue fields)⟩

/-- The outline that an object calls for. -/
def outlineOf (fields : List (Text × Json)) : Outline :=
  ⟨labelOf fields, kindOf (typeValue fields), (childObjects fields).map labelOf⟩

theorem kind_ofFields {kind : ContentKind} {fields : List (Text × Json)} {content : Content}
    (h : Content.ofFields kind fields = .ok content) : content.kind = kind := by
  cases kind with
  | page =>
    cases h
    rfl
  | container =>
    obtain ⟨surface, -, h⟩ := bind_eq_ok.1 h
    obtain ⟨layout, -, h⟩ := bind_eq_ok.1 h
    cases h
    rfl
  | shape =>
    obtain ⟨surface, -, h⟩ := bind_eq_ok.1 h
    cases h
    rfl
  | text =>
    obtain ⟨fills, -, h⟩ := bind_eq_ok.1 h
    obtain ⟨box, -, h⟩ := bind_eq_ok.1 h
    obtain ⟨style, -, h⟩ := bind_eq_ok.1 h
    cases h
    rfl
  | unknown =>
    cases h
    rfl

namespace Node

/-- A node has the label and the kind of its object, and the children that were read before it. -/
theorem ofFields_eq_ok {fields : List (Text × Json)} {children : List Node} {n : Node}
    (h : ofFields fields children = .ok n) :
    n.label = labelOf fields ∧ n.content.kind = kindOf (typeValue fields) ∧
      n.children = children := by
  obtain ⟨content, hContent, h⟩ := bind_eq_ok.1 h
  cases h
  exact ⟨rfl, (kind_ofFields hContent).trans (kind_ofJson _), rfl⟩

theorem label_ofJson {data : Json} {n : Node} (h : ofJson data = .ok n) :
    (ownFields data).map labelOf = [n.label] := by
  obtain ⟨fields, children, rfl, -, hNode⟩ := exists_fields_of_ofJson h
  rw [(ofFields_eq_ok hNode).1]
  rfl

theorem outline_ofFields {fields : List (Text × Json)} {children : List Node} {n : Node}
    (hChildren : (childItems fields).mapM ofJson = .ok children)
    (h : ofFields fields children = .ok n) : n.outline = outlineOf fields := by
  obtain ⟨hLabel, hKind, rfl⟩ := ofFields_eq_ok h
  have hLabels : n.children.map label = (childObjects fields).map labelOf := by
    rw [childObjects, List.map_flatMap, List.map_eq_flatMap]
    exact flatMap_mapM hChildren fun v _ child hChild => (label_ofJson hChild).symm
  rw [outline, outlineOf, hLabel, hKind, hLabels]

/-- The walk through a document passes its objects, each once and in their order, and every node
has the outline of its object. -/
theorem map_outline_walk {data : Json} {n : Node} (h : ofJson data = .ok n) :
    n.walk.map outline = (objects data).map outlineOf := by
  induction data using treeInduction generalizing n with
  | other v hNoObject =>
    obtain ⟨fields, -, rfl, -⟩ := exists_fields_of_ofJson h
    cases hNoObject
  | obj fields ih =>
    obtain ⟨_, children, hData, hChildren, hNode⟩ := exists_fields_of_ofJson h
    cases hData
    have hBelow : (children.flatMap walk).map outline =
        ((childItems fields).flatMap objects).map outlineOf := by
      rw [List.map_flatMap, List.map_flatMap]
      exact flatMap_mapM hChildren fun v hv child hChild => ih v hv hChild
    obtain ⟨-, -, hTail⟩ := ofFields_eq_ok hNode
    rw [walk_eq, objects_obj, List.map_cons, List.map_cons, outline_ofFields hChildren hNode, hTail,
      hBelow]

end Node

end Design

end StyleScaffold
