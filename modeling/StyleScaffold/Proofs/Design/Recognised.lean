import StyleScaffold.Proofs.Design.Component
import StyleScaffold.Proofs.Design.Pixels
import StyleScaffold.Proofs.Design.Style
import StyleScaffold.Proofs.Utility.Concatenation

/-!
# Every declaration of a node has a class

A declaration that its rule does not understand gives no class, and nobody is told. What a node is
described by is understood throughout, as long as the lengths are written without an exponent: the
keywords stand in the tables of the rules, a border is read in its three parts, and of a padding the
first side is found.

* `AreRecognised`: declarations that give a class under all policies, if they do not fail.
* `areRecognised_look`: the parts of a description, by the cases of the content.
* `exists_class_declarations`: so each entry of the declarations has a class of its own.
-/

namespace StyleScaffold

open Text Css Utility

namespace Design

/-! ## Ordinary nodes -/

/-- The number is positive zero, or it is written with the point in its place. -/
def IsLength (x : Binary64) : Prop :=
  x = .zero ∨ ∃ v, x.number? = some v ∧ 1 / 10000 ≤ v ∧ v < 1999999 / 2

/-- The number lies between zero and one. -/
def IsChannel (x : Binary64) : Prop := ∃ v, x.number? = some v ∧ 0 ≤ v ∧ v ≤ 1

def Box.lengths (b : Box) : List Binary64 := [b.width, b.height]

def AutoLayout.lengths (l : AutoLayout) : List Binary64 := [l.gap, l.top, l.right, l.bottom, l.left]

def Surface.lengths (s : Surface) : List Binary64 := s.strokeWeight.toList ++ s.cornerRadius.toList

namespace Content

/-- The numbers that are written as lengths. -/
def lengths : Content → List Binary64
  | .container surface layout => (layout.map AutoLayout.lengths).getD [] ++ surface.lengths
  | .shape surface => surface.lengths
  | .text _ _ _ style => style.size.toList
  | _ => []

/-- The weight of the font. -/
def weight? : Content → Option Int
  | .text _ _ _ style => style.weight.map Weight.value
  | _ => none

/-- Lengths, weights and colours are those of an ordinary design. -/
structure IsOrdinary (content : Content) : Prop where
  lengths : ∀ x ∈ content.lengths, IsLength x
  box : ∀ b ∈ content.box?, ∀ x ∈ b.lengths, IsLength x
  weight : ∀ n ∈ content.weight?, 0 ≤ n
  channels : ∀ paints ∈ content.drawn, ∀ p ∈ paints, ∀ color ∈ p.color,
    ∀ x ∈ [color.red, color.green, color.blue], IsChannel x

end Content

/-! ## Lengths and colours -/

theorem exists_numeral_pixels {x : Binary64} (h : IsLength x) :
    ∃ n : Numeral, n.IsWritten ∧ pixels x = n.text ++ ofString "px" := by
  rcases h with rfl | ⟨v, hNumber, hLow, hHigh⟩
  · exact ⟨⟨"0", none⟩, ⟨by decide, by decide⟩, by decide +kernel⟩
  · obtain ⟨units, hUnits, -, rfl, hText⟩ := exists_units hNumber (by grind)
    have hPlace := (isPositional_significant_iff hUnits).2 ⟨by grind, hHigh⟩
    obtain ⟨n, hn, hPositional, -⟩ := (Binary64.significant 6 units).exists_numeral_positional 6
    refine ⟨n, hn, ?_⟩
    rw [hText, Decimal.layOut, if_pos hPlace, hPositional]

theorem isLength_one : IsLength .one :=
  Or.inr ⟨1, by decide +kernel, by decide +kernel, by decide +kernel⟩

/-- A channel between zero and one has at most the units of one. If it is negative, it is zero. -/
theorem units_of_isChannel {negative : Bool} {units : Nat} {bounded : units < Binary64.unitsLimit}
    (h : IsChannel (.finite negative units bounded)) :
    units ≤ Binary64.unitsPerOne ∧ Binary64.signed negative units = units := by
  obtain ⟨v, hSome, hLow, hHigh⟩ := h
  have hUnit : (0 : Rat) < Binary64.unitsPerOne := Rat.natCast_pos.2 Binary64.unitsPerOne_pos
  have hNumber : v = (Binary64.signed negative units : Rat) / Binary64.unitsPerOne :=
    (Option.some.inj hSome).symm
  have hNonneg : 0 ≤ Binary64.signed negative units := by
    rwa [hNumber, ← Rat.not_lt, Rat.div_lt_iff hUnit, Rat.zero_mul, Rat.not_lt,
      Rat.intCast_nonneg] at hLow
  have hLess : Binary64.signed negative units ≤ (Binary64.unitsPerOne : Int) := by
    rw [hNumber, ← Rat.not_lt, Rat.lt_div_iff hUnit, Rat.one_mul, Rat.not_lt,
      ← Rat.intCast_natCast] at hHigh
    exact Rat.intCast_le_intCast.1 hHigh
  cases negative with
  | false => exact ⟨Int.ofNat_le.1 hLess, rfl⟩
  | true =>
    have hNeg : Binary64.signed true units = -(units : Int) := rfl
    exact ⟨by omega, by omega⟩

/-- The 255-fold of such a channel is finite. -/
theorem times_finite (negative : Bool) {units : Nat} (h : units ≤ Binary64.unitsPerOne) :
    ∃ part hPart, Binary64.ofUnits negative (units * 255) 1 = .finite negative part hPart := by
  have hUnits := Nat.mul_le_mul_right 255 h
  have hBound : 255 < Binary64.overflowBound := by
    unfold Binary64.overflowBound
    decide +kernel
  have hLess := Nat.mul_lt_mul_of_pos_right hBound Binary64.unitsPerOne_pos
  rcases Binary64.ofUnits_cases negative (units * 255) Nat.one_pos with ⟨hMore, -⟩ | ⟨-, hFinite⟩
  · omega
  · exact hFinite

theorem isBounded_of_isChannel {c : Color}
    (h : ∀ x ∈ [c.red, c.green, c.blue], IsChannel x) : c.IsBounded := by
  intro x hx
  have hChannel := h x hx
  cases x with
  | finite negative units bounded =>
    obtain ⟨part, hPart, hFinite⟩ := times_finite negative (units_of_isChannel hChannel).1
    exact ⟨negative, part, hPart, hFinite⟩
  | infinite negative => cases hChannel.choose_spec.1
  | nan => cases hChannel.choose_spec.1

theorem mem_of_solidColor? {paints : List Paint} {color : Color}
    (h : solidColor? paints = some color) : ∃ p ∈ paints, p.color = some color := by
  obtain ⟨p, hp, hVisible⟩ := List.exists_of_findSome?_eq_some h
  refine ⟨p, hp, ?_⟩
  unfold Paint.solid? at hVisible
  split at hVisible
  · split at hVisible
    · exact hVisible
    · cases hVisible
  · cases hVisible

/-- An ordinary node has declarations unless an alignment cannot be looked up. -/
theorem Content.IsOrdinary.isDescribable_iff {content : Content} (h : content.IsOrdinary) :
    content.IsDescribable ↔ ∀ v ∈ content.alignments, v.key?.isSome = true := by
  refine ⟨fun hDescribable => hDescribable.alignments, fun hAlign => ⟨hAlign, ?_⟩⟩
  intro paints hPaints color hColor
  obtain ⟨p, hp, hOwn⟩ := mem_of_solidColor? hColor
  exact isBounded_of_isChannel (h.channels paints hPaints p hp color hOwn)

/-! ## Recognised declarations -/

/-- Under all policies the declaration fails or gives a class. -/
def IsRecognised (d : Text × Text) : Prop := ∀ policies, declarationClasses policies d ≠ .ok []

/-- Each of the declarations is recognised. -/
def AreRecognised (ds : List (Text × Text)) : Prop := ∀ d ∈ ds, IsRecognised d

theorem isRecognised_of_rule {property value : Text} {rule : Rule}
    (hRule : rule? (trim property) = some rule)
    (h : ∀ policies, rule.classes policies value ≠ .ok []) : IsRecognised (property, value) := by
  intro policies
  rw [declarationClasses, hRule]
  exact h policies

theorem isRecognised_keyword {property value : Text} {names : List (Text × Text)}
    (hRule : rule? (trim property) = some (.keyword names))
    (hValue : (names.lookup (trim value)).isSome = true) : IsRecognised (property, value) := by
  obtain ⟨cls, hCls⟩ := Option.isSome_iff_exists.1 hValue
  refine isRecognised_of_rule hRule fun policies => ?_
  simp [Rule.classes, hCls]

theorem isRecognised_color {property stem fallback : Text}
    (hRule : rule? (trim property) = some (.color stem fallback)) (value : Text) :
    IsRecognised (property, value) :=
  isRecognised_of_rule hRule fun policies => by simp [Rule.classes]

theorem lengthClasses_ne_nil {policy : SpacingPolicy} {stem value : Text}
    {ladderClass : Binary64 → Text} {n : Numeral} (h : Pixel.first? value = some n) :
    lengthClasses policy stem ladderClass value ≠ .ok [] := by
  rw [lengthClasses, h]
  cases policy with
  | bucket => simp
  | scale => simp [map_eq_ok]

/-! ## Values that are lengths -/

theorem pixelRead?_append {n : Numeral} (h : n.IsWritten) (rest : Text) :
    Pixel.read? (n.text ++ (ofString "px" ++ rest)) = some n := by
  have hRead : Numeral.read? (n.text ++ (ofString "px" ++ rest)) =
      some (n, ofString "px" ++ rest) := by
    refine Numeral.read?_text_append h ?_
    simpa [ofString] using (by decide : isDigit 'p' = false)
  have hStrip : strip? "px" (ofString "px" ++ rest) = some rest := strip?_eq_some_iff.2 rfl
  simp [Pixel.read?, hRead, startsWith, hStrip]

theorem trim_pixels (x : Binary64) : trim (pixels x) = pixels x :=
  (PlainWords.word (isWord_pixels x)).trimmed.trim_eq

/-- The rules of lengths take a value that starts with one. -/
theorem classes_ne_nil_of_stem {rule : Rule} {stem : Text} (hStem : rule.stem? = some stem)
    {value : Text} {n : Numeral} (hTrim : trim value = value)
    (hRead : Pixel.read? value = some n) (policies : Policies) :
    rule.classes policies value ≠ .ok [] := by
  have hFirst : Pixel.first? value = some n := firstMatch_of_match hRead
  cases rule with
  | spacing _ =>
    rw [Rule.classes]
    exact lengthClasses_ne_nil hFirst
  | radius => exact lengthClasses_ne_nil hFirst
  | fontSize => simp [Rule.classes, fontSizeClass?, hFirst]
  | size _ =>
    rw [Rule.classes, sizeClass?, hTrim, hRead]
    split <;> simp
  | keyword _ => cases hStem
  | fontWeight => cases hStem
  | color _ _ => cases hStem
  | border => cases hStem

theorem isRecognised_length {property value : Text} (h : property ∈ lengthStems.map Prod.fst)
    {n : Numeral} (hTrim : trim value = value) (hRead : Pixel.read? value = some n) :
    IsRecognised (property, value) := by
  obtain ⟨row, hMem, rfl⟩ := List.mem_map.1 h
  obtain ⟨hProperty, hRow⟩ := rule?_lengthStems _ hMem
  obtain ⟨rule, hRule, hSpec⟩ := (Option.any_eq_true _ _).1 hRow
  rw [← hProperty] at hRule
  exact isRecognised_of_rule hRule
    (classes_ne_nil_of_stem (of_decide_eq_true hSpec).1 hTrim hRead)

theorem isRecognised_pixels {property : Text} (h : property ∈ lengthStems.map Prod.fst)
    {x : Binary64} (hx : IsLength x) : IsRecognised (entry property (pixels x)) := by
  obtain ⟨n, hn, hText⟩ := exists_numeral_pixels hx
  have hRead : Pixel.read? (pixels x) = some n := by
    rw [hText, ← List.append_nil (ofString "px")]
    exact pixelRead?_append hn []
  exact isRecognised_length h (trim_pixels x) hRead

/-- Of a padding the first side is read. -/
theorem isRecognised_padding {l : AutoLayout} (h : IsLength l.top) :
    IsRecognised
      (entry "padding" (join [.char ' '] ([l.top, l.right, l.bottom, l.left].map pixels))) := by
  obtain ⟨n, hn, hText⟩ := exists_numeral_pixels h
  have hRead : Pixel.read? (join [.char ' '] ([l.top, l.right, l.bottom, l.left].map pixels)) =
      some n := by
    rw [List.map_cons, join_cons (by simp), hText, List.append_assoc, List.append_assoc]
    exact pixelRead?_append hn _
  exact isRecognised_length (by decide) (isStyle_padding l).value.trimmed.trim_eq hRead

/-! ## Other values -/

/-- The three parts of a border are read. -/
theorem solidBorder?_append {n : Numeral} (hn : n.IsWritten) {hex : Text} (hHex : IsWord hex) :
    solidBorder? (n.text ++ (ofString "px" ++ (ofString " solid " ++ hex))) = some (n, hex) := by
  have hRead : Numeral.read? (n.text ++ (ofString "px" ++ (ofString " solid " ++ hex))) =
      some (n, ofString "px" ++ (ofString " solid " ++ hex)) := by
    refine Numeral.read?_text_append hn ?_
    simpa [ofString] using (by decide : isDigit 'p' = false)
  have hUnit : strip? "px" (ofString "px" ++ (ofString " solid " ++ hex)) =
      some (ofString " solid " ++ hex) := strip?_eq_some_iff.2 rfl
  have hGap : run? isBlank (ofString " solid " ++ hex) =
      some (ofString " ", ofString "solid " ++ hex) := by
    have hHead : (ofString "solid " ++ hex).head? = some (.char 's') := rfl
    have hSplit : ofString " solid " ++ hex = ofString " " ++ (ofString "solid " ++ hex) := rfl
    rw [hSplit]
    refine run?_append (by decide) (by decide) ?_
    rw [hHead]
    simpa using (by decide : isBlank 's' = false)
  have hStyle : strip? "solid" (ofString "solid " ++ hex) = some (ofString " " ++ hex) :=
    strip?_eq_some_iff.2 rfl
  have hSolid : ∀ c ∈ hex, isBlank c = false := fun c hc => isBlank_of_isPlainChar (hHex.2 c hc)
  have hSpace : run? isBlank (ofString " " ++ hex) = some (ofString " ", hex) :=
    run?_append (by decide) (by decide) fun c hc => hSolid c (List.mem_of_mem_head? hc)
  have hLine : ('\n' : CodePoint) ∉ hex := fun hMem => absurd (hSolid _ hMem) (by decide)
  simp [solidBorder?, hRead, hUnit, hGap, hStyle, hSpace, hHex.1, hLine]

theorem isRecognised_border {x : Binary64} (hx : IsLength x) {hex : Text} (hHex : IsWord hex) :
    IsRecognised (entry "border" (pixels x ++ " solid " ++ hex)) := by
  obtain ⟨n, hn, hText⟩ := exists_numeral_pixels hx
  have hRule : rule? (trim "border") = some .border := rfl
  have hWords : PlainWords (pixels x ++ " solid " ++ hex) := by
    have hStyle : PlainWords ("solid" ++ .char ' ' :: hex) := .space (by decide) (.word hHex)
    simpa [ofString] using PlainWords.space (isWord_pixels x) hStyle
  have hSplit : pixels x ++ ofString " solid " ++ hex =
      n.text ++ (ofString "px" ++ (ofString " solid " ++ hex)) := by
    rw [hText, List.append_assoc, List.append_assoc]
  refine isRecognised_of_rule hRule fun policies => ?_
  rw [Rule.classes, hWords.trimmed.trim_eq, hSplit, solidBorder?_append hn hHex]
  simp

/-- A weight that is not negative is written in digits. -/
theorem isRecognised_weight {n : Int} (h : 0 ≤ n) :
    IsRecognised (entry "font-weight" (ofInt n)) := by
  have hRule : rule? (trim "font-weight") = some .fontWeight := rfl
  obtain ⟨k, rfl⟩ := Int.eq_ofNat_of_zero_le h
  obtain ⟨hDigits, -⟩ := digitsValue_ofNat k
  have hTrim : trim (ofInt k) = ofNat k := (PlainWords.word (isWord_ofInt k)).trimmed.trim_eq
  refine isRecognised_of_rule hRule fun policies => ?_
  rw [Rule.classes, fontWeightClass?, hTrim, if_pos (by simpa using ⟨ofNat_ne_nil k, hDigits⟩)]
  simp

/-! ## The parts of a description -/

theorem areRecognised_nil : AreRecognised [] := by simp [AreRecognised]

theorem areRecognised_append {ds es : List (Text × Text)} :
    AreRecognised (ds ++ es) ↔ AreRecognised ds ∧ AreRecognised es := List.forall_mem_append

theorem areRecognised_cons {d : Text × Text} {ds : List (Text × Text)} :
    AreRecognised (d :: ds) ↔ IsRecognised d ∧ AreRecognised ds := List.forall_mem_cons

theorem areRecognised_toList_map {α : Type} {f : α → Text × Text} {o : Option α}
    (h : ∀ a ∈ o, IsRecognised (f a)) : AreRecognised (o.map f).toList := by
  cases o with
  | none => exact areRecognised_nil
  | some a => exact areRecognised_cons.2 ⟨h a rfl, areRecognised_nil⟩

theorem areRecognised_alignment {property : Text} {names : List (Text × Text)}
    {keywords : List (Text × Text)} {v : Json} {ds : List (Text × Text)}
    (hRule : rule? (trim property) = some (.keyword keywords))
    (hNames : ∀ row ∈ names, (keywords.lookup (trim row.2)).isSome = true)
    (h : alignment property names v = .ok ds) : AreRecognised ds := by
  unfold alignment at h
  split at h
  · cases h
    refine areRecognised_toList_map fun value hValue => ?_
    exact isRecognised_keyword hRule (hNames _ (mem_of_lookup hValue))
  · cases h
  · cases h
  · cases h
    exact areRecognised_nil

theorem areRecognised_paintDeclaration {property stem fallback : Text} {paints : List Paint}
    {ds : List (Text × Text)} (hRule : rule? (trim property) = some (.color stem fallback))
    (h : paintDeclaration property paints = .ok ds) : AreRecognised ds := by
  unfold paintDeclaration at h
  split at h
  · cases h
    exact areRecognised_nil
  · obtain ⟨hex, -, hEq⟩ := bind_eq_ok.1 h
    cases hEq
    exact areRecognised_cons.2 ⟨isRecognised_color hRule hex, areRecognised_nil⟩

theorem areRecognised_layout {l : AutoLayout} {ds : List (Text × Text)}
    (hLengths : ∀ x ∈ l.lengths, IsLength x) (h : l.style = .ok ds) : AreRecognised ds := by
  obtain ⟨primary, hPrimary, h⟩ := bind_eq_ok.1 h
  obtain ⟨counter, hCounter, h⟩ := bind_eq_ok.1 h
  cases h
  have hGap : IsLength l.gap := hLengths l.gap (by simp [AutoLayout.lengths])
  have hTop : IsLength l.top := hLengths l.top (by simp [AutoLayout.lengths])
  have hDisplay : IsRecognised (entry "display" "flex") := isRecognised_keyword rfl (by decide)
  have hDirection : ∀ direction ∈ (["row", "column"] : List Text),
      (directionClasses.lookup (trim direction)).isSome = true := by decide
  simp only [areRecognised_append, areRecognised_cons]
  refine ⟨⟨⟨⟨⟨hDisplay, ?_, areRecognised_nil⟩, ?_⟩, ?_⟩, ?_⟩, ?_⟩
  · refine isRecognised_keyword rfl (hDirection _ ?_)
    cases l.direction <;> simp
  · exact areRecognised_alignment rfl (by decide) hPrimary
  · exact areRecognised_alignment rfl (by decide) hCounter
  · split
    · exact areRecognised_cons.2 ⟨isRecognised_pixels (by decide) hGap, areRecognised_nil⟩
    · exact areRecognised_nil
  · split
    · exact areRecognised_cons.2 ⟨isRecognised_padding hTop, areRecognised_nil⟩
    · exact areRecognised_nil

theorem areRecognised_text {fills : List Paint} {s : TextStyle} {ds : List (Text × Text)}
    (hSize : ∀ x ∈ s.size, IsLength x) (hWeight : ∀ w ∈ s.weight, 0 ≤ w.value)
    (h : s.style fills = .ok ds) : AreRecognised ds := by
  obtain ⟨color, hColor, h⟩ := bind_eq_ok.1 h
  obtain ⟨align, hAlign, h⟩ := bind_eq_ok.1 h
  cases h
  simp only [areRecognised_append]
  refine ⟨⟨⟨?_, ?_⟩, ?_⟩, ?_⟩
  · exact areRecognised_paintDeclaration rfl hColor
  · exact areRecognised_toList_map fun x hx => isRecognised_pixels (by decide) (hSize x hx)
  · exact areRecognised_toList_map fun w hw => isRecognised_weight (hWeight w hw)
  · exact areRecognised_alignment rfl (by decide) hAlign

theorem areRecognised_border {s : Surface} {ds : List (Text × Text)}
    (hWeight : ∀ x ∈ s.strokeWeight, IsLength x) (h : s.border = .ok ds) : AreRecognised ds := by
  unfold Surface.border at h
  split at h
  · cases h
    exact areRecognised_nil
  · obtain ⟨hex, hHex, h⟩ := bind_eq_ok.1 h
    cases h
    have hLength : IsLength ((s.strokeWeight.filter (·.isNonzero)).getD .one) := by
      cases hOwn : s.strokeWeight.filter (·.isNonzero) with
      | none => exact isLength_one
      | some x => exact hWeight x (Option.filter_eq_some_iff.1 hOwn).1
    have hWord := isWord_hexText (mapError_eq_ok.1 hHex)
    exact areRecognised_cons.2 ⟨isRecognised_border hLength hWord, areRecognised_nil⟩

theorem areRecognised_surface {s : Surface} {ds : List (Text × Text)}
    (hLengths : ∀ x ∈ s.lengths, IsLength x) (h : s.style = .ok ds) : AreRecognised ds := by
  obtain ⟨fill, hFill, h⟩ := bind_eq_ok.1 h
  obtain ⟨border, hBorder, h⟩ := bind_eq_ok.1 h
  cases h
  have hWeight : ∀ x ∈ s.strokeWeight, IsLength x := fun x hx =>
    hLengths x (List.mem_append_left _ (Option.mem_toList.2 hx))
  have hRadius : ∀ x ∈ s.cornerRadius, IsLength x := fun x hx =>
    hLengths x (List.mem_append_right _ (Option.mem_toList.2 hx))
  simp only [areRecognised_append]
  refine ⟨⟨?_, ?_⟩, ?_⟩
  · exact areRecognised_paintDeclaration rfl hFill
  · exact areRecognised_border hWeight hBorder
  · refine areRecognised_toList_map fun x hx => isRecognised_pixels (by decide) ?_
    exact hRadius x (Option.filter_eq_some_iff.1 hx).1

theorem areRecognised_look {content : Content} {ds : List (Text × Text)} (h : content.IsOrdinary)
    (hLook : content.look = .ok ds) : AreRecognised ds := by
  obtain ⟨hLengths, -, hWeight, -⟩ := h
  cases content with
  | page =>
    cases hLook
    exact areRecognised_nil
  | container surface layout =>
    cases layout with
    | none => exact areRecognised_surface hLengths hLook
    | some layout =>
      obtain ⟨arranged, hLayout, h⟩ := bind_eq_ok.1 hLook
      obtain ⟨painted, hSurface, h⟩ := bind_eq_ok.1 h
      cases h
      have hAll := List.forall_mem_append.1 hLengths
      exact areRecognised_append.2
        ⟨areRecognised_layout hAll.1 hLayout, areRecognised_surface hAll.2 hSurface⟩
  | shape surface => exact areRecognised_surface hLengths hLook
  | text characters fills box style =>
    exact areRecognised_text (fun x hx => hLengths x (Option.mem_toList.2 hx))
      (fun w hw => hWeight w.value (Option.mem_map_of_mem Weight.value hw)) hLook
  | unknown rawType =>
    cases hLook
    exact areRecognised_nil

theorem areRecognised_box {b : Box} (h : ∀ x ∈ b.lengths, IsLength x) : AreRecognised b.style :=
  areRecognised_cons.2 ⟨isRecognised_pixels (by decide) (h b.width (by simp [Box.lengths])),
    areRecognised_cons.2 ⟨isRecognised_pixels (by decide) (h b.height (by simp [Box.lengths])),
      areRecognised_nil⟩⟩

theorem areRecognised_declarations {n : Node} {ds : Declarations} (h : n.content.IsOrdinary)
    (hDeclarations : n.declarations = .ok ds) : AreRecognised ds.entries := by
  obtain ⟨look, hLook, hEq⟩ := bind_eq_ok.1 hDeclarations
  cases hEq
  have hBox : AreRecognised ((n.content.box?.map Box.style).getD []) := by
    have hLengths := h.box
    cases hOwn : n.content.box? with
    | none => exact areRecognised_nil
    | some b => exact areRecognised_box (hLengths b hOwn)
  intro d hd
  exact areRecognised_append.2 ⟨areRecognised_look h hLook, hBox⟩ d (OrderedMap.mem_ofList hd)

/-! ## Classes -/

/-- A recognised style has a class of its own. -/
theorem exists_classes_of_isRecognised {d : Text × Text} (hStyle : IsStyle d)
    (h : IsRecognised d) (policies : Policies) :
    ∃ cs, Utility.classes policies (.ofList [d]) = .ok cs ∧ cs ≠ [] := by
  have hEntries : (OrderedMap.ofList [d]).entries = [d] := rfl
  cases hClasses : declarationClasses policies d with
  | error fault =>
    obtain ⟨-, -, hLong⟩ := declarationClasses_eq_error_iff.1 hClasses
    exact absurd hLong hStyle.not_overlong
  | ok cs =>
    have hSome : cs ≠ [] := by
      rintro rfl
      exact h policies hClasses
    refine ⟨cs.eraseDups, classes_eq_ok_iff.2 ⟨?_, ?_⟩, ?_⟩
    · rw [hEntries, List.forall_mem_singleton]
      exact ⟨cs, hClasses⟩
    · rw [hEntries, List.flatMap_singleton, contribution, hClasses]
      rfl
    · obtain ⟨c, hc⟩ := List.exists_mem_of_ne_nil cs hSome
      exact List.ne_nil_of_mem (List.mem_eraseDups.2 hc)

/-- An ordinary node is described unless an alignment is an array or an object, and then each entry
of its declarations gives a class of its own, whatever the policies are. -/
theorem exists_class_declarations {n : Node} (h : n.content.IsOrdinary) :
    ((∃ ds, n.declarations = .ok ds) ↔ ∀ v ∈ n.content.alignments, v.key?.isSome = true) ∧
      ∀ ds, n.declarations = .ok ds → ∀ d ∈ ds.entries, ∀ policies,
        ∃ cs, Utility.classes policies (.ofList [d]) = .ok cs ∧ cs ≠ [] := by
  refine ⟨Node.exists_declarations_iff.trans h.isDescribable_iff, fun ds hds d hd policies => ?_⟩
  exact exists_classes_of_isRecognised (areStyles_declarations hds d hd)
    (areRecognised_declarations h hds d hd) policies

/-- A row with a gap of 12.5 pixels and a red border of one pixel. -/
def borderedRow : Node :=
  let red : Color := ⟨.one, .zero, .zero, .one⟩
  let surface : Surface := ⟨[], [⟨.str "SOLID", some red, .bool true⟩], none, none, none⟩
  let layout : AutoLayout :=
    ⟨.horizontal, .ofRatio false 25 2, .zero, .zero, .zero, .zero, .str "SPACE_BETWEEN", .null⟩
  .mk (.str "1") (.str "Row") .frame (.container surface (some layout)) []

def borderedRowEntries : List (Text × Text) :=
  [entry "display" "flex", entry "flex-direction" "row", entry "justify-content" "space-between",
    entry "gap" "12.5px", entry "border" "1px solid #ff0000"]

theorem exists_class_borderedRow :
    ∃ ds, borderedRow.declarations = .ok ds ∧ ds.entries = borderedRowEntries ∧
      ∀ d ∈ ds.entries, ∀ policies,
        ∃ cs, Utility.classes policies (.ofList [d]) = .ok cs ∧ cs ≠ [] := by
  have hZero : IsLength .zero := Or.inl rfl
  have hGap : IsLength (.ofRatio false 25 2) :=
    Or.inr ⟨25 / 2, by decide +kernel, by decide +kernel, by decide +kernel⟩
  have hDark : IsChannel .zero := ⟨0, by decide +kernel, by decide +kernel, by decide +kernel⟩
  have hFull : IsChannel .one := ⟨1, by decide +kernel, by decide +kernel, by decide +kernel⟩
  have hOrdinary : borderedRow.content.IsOrdinary := by
    refine ⟨?_, by simp [borderedRow, Node.content, Content.box?],
      by simp [borderedRow, Node.content, Content.weight?], ?_⟩
    · simpa [borderedRow, Node.content, Content.lengths, AutoLayout.lengths, Surface.lengths] using
        ⟨hGap, hZero⟩
    · simpa [borderedRow, Node.content, Content.drawn] using ⟨hFull, hDark⟩
  obtain ⟨-, hClasses⟩ := exists_class_declarations hOrdinary
  have hEntries : borderedRow.declarations.toOption.map (·.entries) = some borderedRowEntries := by
    decide +kernel
  cases hDeclarations : borderedRow.declarations with
  | error fault =>
    rw [hDeclarations] at hEntries
    cases hEntries
  | ok ds =>
    rw [hDeclarations] at hEntries
    exact ⟨ds, rfl, Option.some.inj hEntries, hClasses ds hDeclarations⟩

end Design

end StyleScaffold
