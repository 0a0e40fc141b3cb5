import StyleScaffold.Proofs.Design.Conversion
import StyleScaffold.Proofs.Design.Tree

/-!
# The components of a document

A document that can be read is not yet one that can be converted: an alignment may be an array or an
object, which is in no table, and the channel of a colour may be too large for a whole number.

* `exists_declarations_iff`: apart from these two, every node has declarations.
* `walk_components`: the walk through a document passes its objects, and the components of a
  document, if there are any, are those of its objects that are components or frames, in order and
  each with its own children.
-/

namespace StyleScaffold

theorem Binary64.exists_round?_iff {x : Binary64} :
    (∃ n, x.round? = .ok n) ↔ ∃ negative units bounded, x = .finite negative units bounded := by
  cases x with
  | finite negative units bounded => exact iff_of_true ⟨_, rfl⟩ ⟨_, _, _, rfl⟩
  | infinite negative =>
    constructor
    · rintro ⟨_, h⟩
      cases h
    · rintro ⟨_, _, _, h⟩
      cases h
  | nan =>
    constructor
    · rintro ⟨_, h⟩
      cases h
    · rintro ⟨_, _, _, h⟩
      cases h

namespace Design

open Json

/-! ## Declarations -/

/-- The 255-fold of each channel is a finite number. -/
def Color.IsBounded (c : Color) : Prop :=
  ∀ x ∈ [c.red, c.green, c.blue],
    ∃ negative units bounded, x.times 255 = .finite negative units bounded

theorem Color.exists_channels_iff {c : Color} : (∃ t, c.channels = .ok t) ↔ c.IsBounded := by
  refine (exists_bind_iff fun _ => exists_bind_iff fun _ => exists_bind_iff fun _ =>
    exists_pure_iff).trans ?_
  simp only [channel, Binary64.exists_round?_iff, IsBounded, List.forall_mem_cons,
    List.not_mem_nil, false_imp_iff, implies_true]

/-- A colour has a text just when it is in bounds. -/
theorem Color.exists_hex_iff {c : Color} : (∃ hex, c.hexText = .ok hex) ↔ c.IsBounded :=
  (exists_bind_iff fun _ => exists_pure_iff).trans (by rw [and_true, exists_channels_iff])

theorem Color.exists_hexText_iff {c : Color} {f : Text → List (Text × Text)} :
    (∃ ds, (do let hex ← c.hexText.mapError .number; pure (f hex) :
      Except DataFault (List (Text × Text))) = .ok ds) ↔ c.IsBounded := by
  rw [exists_bind_iff fun _ => exists_pure_iff, and_true]
  simp only [mapError_eq_ok, exists_hex_iff]

namespace Content

/-- The values that are looked up as alignments. -/
def alignments : Content → List Json
  | .container _ (some layout) => [layout.primaryAlign, layout.counterAlign]
  | .text _ _ _ style => [style.align]
  | _ => []

/-- The lists of paints that are drawn in one colour each. -/
def drawn : Content → List (List Paint)
  | .container surface _ => [surface.fills, surface.strokes]
  | .shape surface => [surface.fills, surface.strokes]
  | .text _ fills _ _ => [fills]
  | _ => []

/-- No alignment is an array or an object, and no colour that is drawn is out of bounds. -/
structure IsDescribable (content : Content) : Prop where
  alignments : ∀ v ∈ content.alignments, v.key?.isSome = true
  colors : ∀ paints ∈ content.drawn, ∀ color, solidColor? paints = some color → color.IsBounded

end Content

theorem exists_alignment_iff {property : Text} {names : List (Text × Text)} {v : Json} :
    (∃ ds, alignment property names v = .ok ds) ↔ v.key?.isSome = true := by
  cases v <;> simp [alignment, key?]

theorem exists_paintDeclaration_iff {property : Text} {paints : List Paint} :
    (∃ ds, paintDeclaration property paints = .ok ds) ↔
      ∀ color, solidColor? paints = some color → color.IsBounded := by
  unfold paintDeclaration
  cases solidColor? paints with
  | none => simp
  | some color => simpa using Color.exists_hexText_iff

theorem exists_border_iff {s : Surface} :
    (∃ ds, s.border = .ok ds) ↔
      ∀ color, solidColor? s.strokes = some color → color.IsBounded := by
  unfold Surface.border
  cases solidColor? s.strokes with
  | none => simp
  | some color => simpa using Color.exists_hexText_iff

theorem exists_surface_iff {s : Surface} :
    (∃ ds, s.style = .ok ds) ↔ ∀ paints ∈ [s.fills, s.strokes], ∀ color,
      solidColor? paints = some color → color.IsBounded := by
  refine (exists_bind_iff fun _ => exists_bind_iff fun _ => exists_pure_iff).trans ?_
  rw [exists_paintDeclaration_iff, exists_border_iff]
  simp

theorem exists_layout_iff {l : AutoLayout} :
    (∃ ds, l.style = .ok ds) ↔
      ∀ v ∈ [l.primaryAlign, l.counterAlign], v.key?.isSome = true := by
  refine (exists_bind_iff fun _ => exists_bind_iff fun _ => exists_pure_iff).trans ?_
  rw [exists_alignment_iff, exists_alignment_iff]
  simp

theorem exists_text_iff {fills : List Paint} {s : TextStyle} :
    (∃ ds, s.style fills = .ok ds) ↔
      (∀ color, solidColor? fills = some color → color.IsBounded) ∧ s.align.key?.isSome = true := by
  refine (exists_bind_iff fun _ => exists_bind_iff fun _ => exists_pure_iff).trans ?_
  rw [exists_paintDeclaration_iff, exists_alignment_iff, and_true]

theorem exists_look_iff {content : Content} :
    (∃ ds, content.look = .ok ds) ↔ content.IsDescribable := by
  have hIff : content.IsDescribable ↔ (∀ v ∈ content.alignments, v.key?.isSome = true) ∧
      ∀ paints ∈ content.drawn, ∀ color, solidColor? paints = some color → color.IsBounded :=
    ⟨fun h => ⟨h.alignments, h.colors⟩, fun h => ⟨h.1, h.2⟩⟩
  rw [hIff]
  cases content with
  | page => simp [Content.look, Content.alignments, Content.drawn]
  | unknown rawType => simp [Content.look, Content.alignments, Content.drawn]
  | shape surface =>
    rw [Content.look, exists_surface_iff]
    simp [Content.alignments, Content.drawn]
  | text characters fills box style =>
    rw [Content.look, exists_text_iff, and_comm]
    simp [Content.alignments, Content.drawn]
  | container surface layout =>
    cases layout with
    | none =>
      rw [Content.look, exists_surface_iff]
      simp [Content.alignments, Content.drawn]
    | some layout =>
      refine (exists_bind_iff fun _ => exists_bind_iff fun _ => exists_pure_iff).trans ?_
      rw [exists_layout_iff, exists_surface_iff, and_true]
      rfl

/-- A node has declarations unless an alignment cannot be looked up or a colour is out of bounds. -/
theorem Node.exists_declarations_iff {n : Node} :
    (∃ ds, n.declarations = .ok ds) ↔ n.content.IsDescribable := by
  rw [← exists_look_iff]
  refine (exists_bind_iff fun _ => exists_pure_iff).trans ?_
  rw [and_true]

/-! ## Components -/

/-- A component as it is listed: its own label, and those of its children. -/
def DesignComponent.listing (c : DesignComponent) : ChildLabel × List ChildLabel :=
  (⟨c.id, c.name, c.type⟩, c.children)

/-- Whether the type of an object is that of a component or a frame. -/
def isComponentObject (fields : List (Text × Json)) : Bool :=
  (typeValue fields).isText "COMPONENT" || (typeValue fields).isText "FRAME"

/-- The listing that an object calls for. -/
def listingOf (fields : List (Text × Json)) : ChildLabel × List ChildLabel :=
  (labelOf fields, (childObjects fields).map labelOf)

namespace Outline

def isComponent (o : Outline) : Bool := o.label.type = .component || o.label.type = .frame

def listing (o : Outline) : ChildLabel × List ChildLabel := (o.label, o.children)

theorem isComponent_outlineOf (fields : List (Text × Json)) :
    (outlineOf fields).isComponent = isComponentObject fields := by
  have hComponent : NodeType.ofJson (typeValue fields) = .component ↔
      (typeValue fields).isText "COMPONENT" = true := ofJson_eq_iff (by decide)
  have hFrame : NodeType.ofJson (typeValue fields) = .frame ↔
      (typeValue fields).isText "FRAME" = true := ofJson_eq_iff (by decide)
  rw [Bool.eq_iff_iff, isComponentObject, isComponent, Bool.or_eq_true, Bool.or_eq_true,
    decide_eq_true_iff, decide_eq_true_iff, ← hComponent, ← hFrame]
  rfl

end Outline

namespace Node

theorem listing_toComponent {policies : Policies} {n : Node} {c : DesignComponent}
    (h : n.toComponent policies = .ok c) : c.listing = n.outline.listing := by
  obtain ⟨ds, classes, -, -, rfl⟩ := toComponent_eq_ok.1 h
  rfl

/-- A frame that arranges its children, with an alignment that is an array. -/
def arrayAligned : Json :=
  .obj [("type", .str "FRAME"), ("layoutMode", .str "HORIZONTAL"),
    ("primaryAxisAlignItems", .arr [])]

/-- Not every document that can be read has a component for each of its components and frames. -/
theorem not_listing_components :
    ¬ ∀ (data : Json) (n : Node), ofJson data = .ok n →
      ∃ cs, n.components {} = .ok cs ∧
        cs.map DesignComponent.listing = ((objects data).filter isComponentObject).map listingOf := by
  intro h
  have hRead : (ofJson arrayAligned).toOption.isSome = true := by decide +kernel
  have hFault : (ofJson arrayAligned >>= components {}).toOption.isNone = true := by decide +kernel
  cases hNode : ofJson arrayAligned with
  | error fault =>
    rw [hNode] at hRead
    cases hRead
  | ok n =>
    obtain ⟨cs, hcs, -⟩ := h arrayAligned n hNode
    rw [hNode] at hFault
    change (n.components {}).toOption.isNone = true at hFault
    rw [hcs] at hFault
    cases hFault

/-- The walk through a document passes its objects, each once and parents in front of their
children. The document can be converted unless a component or a frame cannot be described, and then
there is one component for each object that is a component or a frame, in their order and with the
children of the object. -/
theorem walk_components (policies : Policies) {data : Json} {n : Node} (h : ofJson data = .ok n) :
    n.walk.map outline = (objects data).map outlineOf ∧
      ((∃ cs, n.components policies = .ok cs) ↔
        ∀ m ∈ n.walk, m.type = .component ∨ m.type = .frame → m.content.IsDescribable) ∧
      ∀ cs, n.components policies = .ok cs →
        cs.map DesignComponent.listing = ((objects data).filter isComponentObject).map listingOf := by
  have hWalk := map_outline_walk h
  refine ⟨hWalk, ?_, fun cs hcs => ?_⟩
  · rw [exists_components_iff]
    simp only [exists_declarations_iff, isComponent, Bool.or_eq_true, decide_eq_true_eq]
  · calc cs.map DesignComponent.listing
        = (n.walk.filter isComponent).map fun m => m.outline.listing :=
          map_mapM_eq hcs fun m _ c hc => listing_toComponent hc
      _ = ((n.walk.map outline).filter Outline.isComponent).map Outline.listing := by
          rw [List.filter_map, List.map_map]
          rfl
      _ = ((objects data).filter isComponentObject).map listingOf := by
          rw [hWalk, List.filter_map, List.map_map]
          simp only [Function.comp_def, Outline.isComponent_outlineOf]
          rfl

/-- A component inside a text, beside a node of a type that is not described. -/
def componentInText : Json :=
  .obj [("type", .str "FRAME"), ("id", .str "1"), ("children", .arr [
    .obj [("type", .str "TEXT"), ("id", .str "2"), ("children", .arr [
      .obj [("type", .str "COMPONENT"), ("id", .str "3")]])],
    .obj [("type", .str "WIDGET"), ("id", .str "4")]])]

theorem walk_components_componentInText :
    ∃ n, ofJson componentInText = .ok n ∧
      n.walk.map outline = (objects componentInText).map outlineOf ∧
      ∃ cs, n.components {} = .ok cs ∧ cs.map DesignComponent.listing =
        [(⟨.str "1", .str [], .frame⟩, [⟨.str "2", .str [], .text⟩, ⟨.str "4", .str [], .other⟩]),
          (⟨.str "3", .str [], .component⟩, [])] := by
  have hRead : ofJson componentInText = .ok _ := rfl
  obtain ⟨hWalk, -, hListing⟩ := walk_components {} hRead
  exact ⟨_, hRead, hWalk, _, rfl, hListing _ rfl⟩

end Node

end Design

end StyleScaffold
