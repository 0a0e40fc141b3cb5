import StyleScaffold.Design.Reader
import StyleScaffold.Proofs.Design.Tree
import StyleScaffold.Proofs.Json.Reading

/-!
# What can be read as a document

A document is read where every object of its tree has the shape that its type asks for: paints, a
box, spacing and a style have to be objects and arrays where they are there at all, and numbers
where a number is asked for. The shapes are described by what the fields hold (`IsNode`), and they
are what the reader takes (`exists_ofJson_iff`); for a file there are two maps besides (`IsFile`).
-/

namespace StyleScaffold.Design

open Text Json

variable {v : Json} {fields : List (Text × Json)} {key : Text}

/-! ## Shapes -/

/-- A colour: its channels are numbers where they are given. -/
def IsColor (v : Json) : Prop :=
  ∃ fields, v = .obj fields ∧ ∀ key ∈ (["r", "g", "b", "a"] : List Text), HasFloat fields key

def IsPaint (v : Json) : Prop :=
  ∃ fields, v = .obj fields ∧
    ((fieldOrNull fields "color").truthy = true → IsColor (fieldOrNull fields "color"))

def HasPaints (fields : List (Text × Json)) (key : Text) : Prop :=
  (fieldOrNull fields key).truthy = true →
    ∃ items, fieldOrNull fields key = .arr items ∧ ∀ w ∈ items, IsPaint w

def HasBox (fields : List (Text × Json)) : Prop :=
  (fieldOrNull fields "absoluteBoundingBox").truthy = true →
    ∃ box, fieldOrNull fields "absoluteBoundingBox" = .obj box ∧
      ∀ key ∈ (["x", "y", "width", "height"] : List Text), HasFloat box key

/-- Spacing matters only where a direction is named. -/
def HasLayout (fields : List (Text × Json)) : Prop :=
  fieldOrNull fields "layoutMode" = .str "HORIZONTAL" ∨
      fieldOrNull fields "layoutMode" = .str "VERTICAL" →
    ∀ key ∈ (["itemSpacing", "paddingTop", "paddingRight", "paddingBottom", "paddingLeft"] :
      List Text), HasFloat fields key

/-- A whole number that can be written in digits. -/
def IsWeight (v : Json) : Prop :=
  v.IsInteger ∧ ∀ n, v = .int n → n.natAbs < Literal.integerLimit

def HasStyle (fields : List (Text × Json)) : Prop :=
  (fieldOrNull fields "style").truthy = true →
    ∃ style, fieldOrNull fields "style" = .obj style ∧ HasOptionalFloat style "fontSize" ∧
      (fieldOrNull style "fontWeight" = .null ∨ IsWeight (fieldOrNull style "fontWeight"))

def HasSurface (fields : List (Text × Json)) : Prop :=
  HasPaints fields "fills" ∧ HasPaints fields "strokes" ∧ HasOptionalFloat fields "strokeWeight" ∧
    HasBox fields ∧ HasOptionalFloat fields "cornerRadius"

/-- What the type of an object asks for. -/
def HasContent (fields : List (Text × Json)) : Prop :=
  match kindOf (typeValue fields) with
  | .page | .unknown => True
  | .container => HasSurface fields ∧ HasLayout fields
  | .shape => HasSurface fields
  | .text => HasPaints fields "fills" ∧ HasBox fields ∧ HasStyle fields

/-- The children are an array of objects, if there are any. -/
def HasChildren (fields : List (Text × Json)) : Prop :=
  (fieldOrNull fields "children").truthy = true →
    ∃ items, fieldOrNull fields "children" = .arr items ∧ ∀ w ∈ items, ∃ inner, w = .obj inner

/-- An object in the tree of which every object has children and content of the right shape. -/
def IsNode (v : Json) : Prop :=
  (∃ fields, v = .obj fields) ∧ ∀ fields ∈ objects v, HasChildren fields ∧ HasContent fields

def IsFile (v : Json) : Prop :=
  ∃ fields, v = .obj fields ∧
    ((fieldOrNull fields "document").truthy = true → IsNode (fieldOrNull fields "document")) ∧
    HasMap fields "components" ∧ HasMap fields "styles"

/-! ## Parts of a node -/

theorem exists_map_some_iff {ε α : Type} {x : Except ε α} :
    (∃ a, x.map some = .ok a) ↔ ∃ a, x = .ok a := by
  simp only [map_eq_ok]
  constructor
  · rintro ⟨_, a, hx, -⟩
    exact ⟨a, hx⟩
  · rintro ⟨a, hx⟩
    exact ⟨some a, a, hx, rfl⟩

theorem exists_optionalFloat_iff :
    (∃ x, optionalFloat fields key = .ok x) ↔ HasOptionalFloat fields key := by
  unfold optionalFloat HasOptionalFloat
  split
  · rename_i hNull
    exact iff_of_true ⟨none, rfl⟩ (Or.inl hNull)
  · rename_i hSome
    rw [exists_map_some_iff, exists_toFloat_iff, or_iff_right hSome]

theorem exists_floatOrZero_iff :
    (∃ x, floatOrZero fields key = .ok x) ↔ HasFloat fields key :=
  exists_fieldOr_toFloat_iff isFloat_zero

theorem Color.exists_ofJson_iff : (∃ c, Color.ofJson v = .ok c) ↔ IsColor v := by
  refine exists_fields?_bind_iff.trans (exists_congr fun fields => and_congr_right fun _ => ?_)
  rw [exists_bind_iff fun _ => exists_bind_iff fun _ => exists_bind_iff fun _ =>
    exists_bind_iff fun _ => exists_pure_iff, exists_fieldOr_toFloat_iff isFloat_zero,
    exists_fieldOr_toFloat_iff isFloat_zero, exists_fieldOr_toFloat_iff isFloat_zero,
    exists_fieldOr_toFloat_iff isFloat_one]
  simp

theorem Paint.exists_ofJson_iff : (∃ p, Paint.ofJson v = .ok p) ↔ IsPaint v := by
  refine exists_fields?_bind_iff.trans (exists_congr fun fields => and_congr_right fun _ => ?_)
  refine exists_ite_iff (fun _ => ?_) fun _ => ⟨_, rfl⟩
  rw [exists_bind_iff fun _ => exists_pure_iff, and_true, exists_map_some_iff,
    Color.exists_ofJson_iff]

theorem Paint.ofJson_str_ne_ok (s : Text) (p : Paint) : Paint.ofJson (.str s) ≠ .ok p := by
  intro h
  cases h

/-- The parts of texts and objects are texts, so only arrays have paints for parts. -/
theorem Paint.exists_mapM_parts_iff (h : v.truthy = true) :
    (∃ ps, (v.parts >>= fun parts => parts.mapM Paint.ofJson) = .ok ps) ↔
      ∃ items, v = .arr items ∧ ∀ w ∈ items, IsPaint w := by
  have hText : ∀ s parts, ¬ ∃ ps, (Json.str s :: parts).mapM Paint.ofJson = .ok ps := by
    intro s parts hAll
    obtain ⟨p, hp⟩ := exists_mapM_eq_ok_iff.1 hAll (.str s) List.mem_cons_self
    exact Paint.ofJson_str_ne_ok s p hp
  cases v with
  | arr items =>
    refine exists_mapM_eq_ok_iff.trans ?_
    simp only [Paint.exists_ofJson_iff]
    simp
  | str s =>
    obtain ⟨c, s, rfl⟩ := List.exists_cons_of_ne_nil (show s ≠ [] by simpa [truthy] using h)
    exact iff_of_false (hText [c] (s.map fun c => .str [c])) (by simp)
  | obj inner =>
    obtain ⟨f, inner, rfl⟩ := List.exists_cons_of_ne_nil (show inner ≠ [] by simpa [truthy] using h)
    exact iff_of_false (hText f.1 (inner.map fun f => .str f.1)) (by simp)
  | null | bool | int | float =>
    refine iff_of_false ?_ (by simp)
    rintro ⟨ps, hParts⟩
    cases hParts

theorem Paint.exists_listOf_iff :
    (∃ ps, Paint.listOf fields key = .ok ps) ↔ HasPaints fields key :=
  exists_ite_iff Paint.exists_mapM_parts_iff fun _ => ⟨_, rfl⟩

theorem Box.exists_ofFields_iff : (∃ b, Box.ofFields fields = .ok b) ↔ HasBox fields := by
  refine exists_ite_iff (fun _ => ?_) fun _ => ⟨_, rfl⟩
  refine exists_fields?_bind_iff.trans (exists_congr fun box => and_congr_right fun _ => ?_)
  rw [exists_bind_iff fun _ => exists_bind_iff fun _ => exists_bind_iff fun _ =>
    exists_bind_iff fun _ => exists_pure_iff]
  simp [exists_floatOrZero_iff]

theorem ofJson?_eq_none_iff :
    Direction.ofJson? v = none ↔ ¬ (v = .str "HORIZONTAL" ∨ v = .str "VERTICAL") := by
  rw [← isText_iff, ← isText_iff, Direction.ofJson?]
  cases v.isText "HORIZONTAL" <;> cases v.isText "VERTICAL" <;> simp

theorem AutoLayout.exists_ofFields_iff :
    (∃ l, AutoLayout.ofFields fields = .ok l) ↔ HasLayout fields := by
  unfold AutoLayout.ofFields HasLayout
  cases hDirection : Direction.ofJson? (fieldOrNull fields "layoutMode") with
  | none =>
    have hNamed := ofJson?_eq_none_iff.1 hDirection
    exact iff_of_true ⟨_, rfl⟩ fun h => absurd h hNamed
  | some direction =>
    have hNamed := Classical.byContradiction fun h => by
      rw [ofJson?_eq_none_iff.2 h] at hDirection
      cases hDirection
    rw [forall_prop_of_true hNamed]
    dsimp only
    rw [exists_bind_iff fun _ => exists_bind_iff fun _ => exists_bind_iff fun _ =>
      exists_bind_iff fun _ => exists_bind_iff fun _ => exists_pure_iff]
    simp [exists_floatOrZero_iff]

theorem Weight.exists_ofInt?_iff {n : Int} :
    (∃ w, Weight.ofInt? n = .ok w) ↔ n.natAbs < Literal.integerLimit := by
  unfold Weight.ofInt?
  split
  · rename_i hLess
    exact iff_of_true ⟨_, rfl⟩ hLess
  · rename_i hMore
    refine iff_of_false ?_ hMore
    rintro ⟨w, h⟩
    cases h

/-- Only a number that is given as one can be too large for a weight. -/
theorem Weight.exists_iff : (∃ w, v.toInt >>= Weight.ofInt? = .ok w) ↔ IsWeight v := by
  rw [exists_bind_eq_ok_iff, IsWeight, ← exists_toInt_iff, ← exists_and_right]
  refine exists_congr fun n => and_congr_right fun hn => ?_
  rw [Weight.exists_ofInt?_iff]
  cases v with
  | int m =>
    cases hn
    simp
  | bool b =>
    cases hn
    refine iff_of_true (Nat.lt_of_le_of_lt ?_ one_lt_integerLimit) (by simp)
    cases b <;> decide
  | float x => exact iff_of_true (natAbs_lt_of_truncate? (mapError_eq_ok.1 hn)) (by simp)
  | str s =>
    rw [toInt] at hn
    split at hn
    · rename_i m hInteger
      cases hn
      exact iff_of_true (natAbs_lt_of_integer? hInteger) (by simp)
    · cases hn
  | null | arr | obj => cases hn

theorem TextStyle.exists_ofFields_iff :
    (∃ s, TextStyle.ofFields fields = .ok s) ↔ HasStyle fields := by
  -- a style that counts as missing has neither a size nor a weight
  refine exists_ite_iff (fun _ => ?_) fun _ => ⟨_, rfl⟩
  refine exists_fields?_bind_iff.trans (exists_congr fun style => and_congr_right fun _ => ?_)
  refine (exists_bind_iff fun size => ?_).trans (and_congr_left' exists_optionalFloat_iff)
  split
  · rename_i hNull
    exact iff_of_true ⟨_, rfl⟩ (Or.inl hNull)
  · rename_i hWeight
    rw [exists_bind_iff fun _ => exists_pure_iff, and_true, exists_map_some_iff,
      Weight.exists_iff, or_iff_right hWeight]

theorem Surface.exists_ofFields_iff :
    (∃ s, Surface.ofFields fields = .ok s) ↔ HasSurface fields := by
  refine (exists_bind_iff fun _ => exists_bind_iff fun _ => exists_bind_iff fun _ =>
    exists_bind_iff fun _ => exists_bind_iff fun _ => exists_pure_iff).trans ?_
  rw [Paint.exists_listOf_iff, Paint.exists_listOf_iff, exists_optionalFloat_iff,
    Box.exists_ofFields_iff, exists_optionalFloat_iff, and_true, HasSurface]

theorem Content.exists_ofFields_iff :
    (∃ c, Content.ofFields (kindOf (typeValue fields)) fields = .ok c) ↔ HasContent fields := by
  unfold HasContent
  cases kindOf (typeValue fields) with
  | page | unknown => exact iff_of_true ⟨_, rfl⟩ trivial
  | container =>
    refine (exists_bind_iff fun _ => exists_bind_iff fun _ => exists_pure_iff).trans ?_
    rw [Surface.exists_ofFields_iff, AutoLayout.exists_ofFields_iff, and_true]
  | shape =>
    refine (exists_bind_iff fun _ => exists_pure_iff).trans ?_
    rw [Surface.exists_ofFields_iff, and_true]
  | text =>
    refine (exists_bind_iff fun _ => exists_bind_iff fun _ => exists_bind_iff fun _ =>
      exists_pure_iff).trans ?_
    rw [Paint.exists_listOf_iff, Box.exists_ofFields_iff, TextStyle.exists_ofFields_iff, and_true]

/-! ## Trees -/

namespace Node

theorem exists_ofFields_iff {children : List Node} :
    (∃ n, ofFields fields children = .ok n) ↔ HasContent fields := by
  refine (exists_bind_iff fun _ => exists_pure_iff).trans ?_
  rw [and_true, kind_ofJson]
  exact Content.exists_ofFields_iff

theorem exists_childrenFault_iff : (∃ ns, childrenFault v = .ok ns) ↔ ¬ v.truthy = true := by
  unfold childrenFault
  split
  · simp [truthy]
  · simp [truthy]
  · by_cases hTruthy : v.truthy = true
    · simp [hTruthy]
    · simp [hTruthy]

/-- The children of an array are its items, and other values have none or cannot be read. -/
theorem exists_childrenOfJson_iff :
    (∃ ns, childrenOfJson v = .ok ns) ↔
      (v.truthy = true → ∃ vs, v = .arr vs) ∧ ∀ w ∈ items v, ∃ n, ofJson w = .ok n := by
  by_cases hArray : ∃ vs, v = .arr vs
  · obtain ⟨vs, rfl⟩ := hArray
    rw [childrenOfJson, ofItems_eq_mapM, exists_mapM_eq_ok_iff]
    simp [items]
  · have hItems : items v = [] := by
      unfold items
      split
      · exact absurd ⟨_, rfl⟩ hArray
      · rfl
    rw [childrenOfJson.eq_2 v fun vs hEq => hArray ⟨vs, hEq⟩, exists_childrenFault_iff, hItems]
    simp [hArray]

theorem truthy_of_mem_items {w : Json} (h : w ∈ items v) : v.truthy = true := by
  cases v with
  | arr vs =>
    have hne : vs ≠ [] := List.ne_nil_of_mem h
    simpa [truthy] using hne
  | _ => cases h

theorem isNode_obj_iff :
    IsNode (.obj fields) ↔
      (((fieldOrNull fields "children").truthy = true →
        ∃ vs, fieldOrNull fields "children" = .arr vs) ∧ ∀ w ∈ childItems fields, IsNode w) ∧
      HasContent fields := by
  have hItems : ∀ vs, fieldOrNull fields "children" = .arr vs → childItems fields = vs := by
    intro vs hArray
    rw [childItems, hArray, items]
  simp only [IsNode, objects_obj, List.forall_mem_cons, List.forall_mem_flatMap]
  constructor
  · rintro ⟨-, ⟨hChildren, hContent⟩, hBelow⟩
    refine ⟨⟨fun hTruthy => ?_, fun w hw => ⟨?_, hBelow w hw⟩⟩, hContent⟩
    · obtain ⟨vs, hArray, -⟩ := hChildren hTruthy
      exact ⟨vs, hArray⟩
    · obtain ⟨vs, hArray, hObjects⟩ := hChildren (truthy_of_mem_items hw)
      rw [hItems vs hArray] at hw
      exact hObjects w hw
  · rintro ⟨⟨hArray, hBelow⟩, hContent⟩
    refine ⟨⟨fields, rfl⟩, ⟨fun hTruthy => ?_, hContent⟩, fun w hw => (hBelow w hw).2⟩
    obtain ⟨vs, hVs⟩ := hArray hTruthy
    refine ⟨vs, hVs, fun w hw => ?_⟩
    rw [← hItems vs hVs] at hw
    exact (hBelow w hw).1

/-- A value gives a node where it is an object, and every object in its tree has the shape that its
type asks for. -/
theorem exists_ofJson_iff : (∃ n, ofJson v = .ok n) ↔ IsNode v := by
  induction v using treeInduction with
  | other v hOther =>
    refine iff_of_false ?_ ?_
    · rintro ⟨n, hNode⟩
      obtain ⟨fields, -, rfl, -⟩ := exists_fields_of_ofJson hNode
      cases hOther
    · rintro ⟨⟨fields, rfl⟩, -⟩
      cases hOther
  | obj fields ih =>
    rw [isNode_obj_iff, ofJson, exists_bind_iff fun _ => exists_ofFields_iff, childrenOfFields_eq,
      exists_childrenOfJson_iff]
    refine and_congr_left' (and_congr_right' ?_)
    exact forall₂_congr ih

end Node

/-! ## Files -/

namespace DesignFile

theorem exists_mapOf_iff : (∃ m, mapOf fields key = .ok m) ↔ HasMap fields key := by
  unfold mapOf
  exact exists_ite_iff exists_toMap_iff fun _ => ⟨_, rfl⟩

theorem exists_ofJson_iff : (∃ f, ofJson v = .ok f) ↔ IsFile v := by
  refine exists_fields?_bind_iff.trans (exists_congr fun fields => and_congr_right fun _ => ?_)
  refine (exists_bind_iff fun _ => exists_bind_iff fun _ => exists_bind_iff fun _ =>
    exists_pure_iff).trans ?_
  rw [exists_mapOf_iff, exists_mapOf_iff, and_true]
  refine and_congr_left' ?_
  split
  · rename_i hTruthy
    rw [Node.exists_ofJson_iff, forall_prop_of_true hTruthy]
  · -- a document without fields can be read
    rename_i hTruthy
    exact iff_of_true ⟨_, rfl⟩ fun h => absurd h hTruthy

end DesignFile

end StyleScaffold.Design
