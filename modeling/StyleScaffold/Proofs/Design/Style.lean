import StyleScaffold.Design.Style
import StyleScaffold.Proofs.Except
import StyleScaffold.Proofs.Number.Rounded
import StyleScaffold.Proofs.Stylesheet.WrittenRule

/-!
# What a node is described by

Every declaration of a node is a plain property with plain words for its value (`IsStyle`), whatever
is in the node: channels out of range, numbers that are infinite or none, and weights below zero
are all written with plain characters. The properties whose values are looked at as lengths have
short values, because the rounded text of a number is short.

* `areStyles_declarations`: each entry of the declarations, by the cases of the content.
* `areWritable_declarations`, `exists_classes_declarations`: so the declarations can be written in
  a rule, and they have classes under all policies.
-/

namespace StyleScaffold.Design

open Text Css

/-- The property is a plain word and the value is plain words, few enough of them where the value is
looked at as a length. -/
structure IsStyle (d : Text × Text) : Prop where
  property : IsWord d.1
  value : PlainWords d.2
  short : d.1 ∈ Utility.lengthProperties → d.2.length ≤ 100

/-- Each of the declarations is a style. -/
def AreStyles (ds : List (Text × Text)) : Prop := ∀ d ∈ ds, IsStyle d

/-! ## Styles as declarations -/

theorem oneLine_of_plainWords {s : Text} (h : PlainWords s) : OneLine s := by
  intro c hc
  rcases h.of_mem hc with rfl | hPlain
  · decide
  · exact isLineBreak_of_isPlainChar hPlain

theorem noBrace_of_plainWords {s : Text} (h : PlainWords s) : NoBrace s := by
  intro c hc
  rcases h.of_mem hc with rfl | hPlain
  · decide
  · exact isBrace_of_isPlainChar hPlain

theorem not_mem_of_plainWords {s : Text} (h : PlainWords s) {c : CodePoint} (hSpace : c ≠ ' ')
    (hPlain : isPlainChar c = false) : c ∉ s := by
  intro hc
  rcases h.of_mem hc with hEq | hTrue
  · exact hSpace hEq
  · rw [hPlain] at hTrue
    contradiction

theorem IsStyle.isDeclaration {d : Text × Text} (h : IsStyle d) : IsDeclaration d := by
  have hProperty : PlainWords d.1 := .word h.property
  exact {
    property_ne_nil := hProperty.ne_nil
    property_trimmed := hProperty.trimmed
    property_oneLine := oneLine_of_plainWords hProperty
    property_noBrace := noBrace_of_plainWords hProperty
    property_noColon := not_mem_of_plainWords hProperty (by decide) (by decide)
    value_ne_nil := h.value.ne_nil
    value_trimmed := h.value.trimmed
    value_oneLine := oneLine_of_plainWords h.value
    value_noBrace := noBrace_of_plainWords h.value }

theorem IsStyle.noSlash {d : Text × Text} (h : IsStyle d) :
    ('/' : CodePoint) ∉ d.1 ∧ ('/' : CodePoint) ∉ d.2 :=
  ⟨not_mem_of_plainWords (.word h.property) (by decide) (by decide),
    not_mem_of_plainWords h.value (by decide) (by decide)⟩

theorem IsStyle.not_overlong {d : Text × Text} (h : IsStyle d) : ¬ Utility.Overlong d := by
  intro hLong
  have hTrim : trim d.1 = d.1 := (PlainWords.word h.property).trimmed.trim_eq
  have hProperty : d.1 ∈ Utility.lengthProperties := by
    rw [← hTrim]
    exact hLong.1
  exact Utility.not_overlong_of_length_le (h.short hProperty) hLong

/-! ## Values -/

theorem isWord_pixels (x : Binary64) : IsWord (pixels x) :=
  (Binary64.isWord_rounded x).append (by decide)

theorem length_pixels_le (x : Binary64) : (pixels x).length ≤ 17 := by
  have hUnit : ("px" : Text).length = 2 := rfl
  have hLength := Binary64.length_rounded_le x
  rw [pixels, List.length_append]
  omega

theorem plain_channelHex (n : Int) : Plain (Color.channelHex n) := by
  cases n with
  | ofNat n => exact plain_hex 2 n
  | negSucc n => exact Plain.cons (by decide) (plain_hex 1 (n + 1))

theorem isWord_hexText {color : Color} {t : Text} (h : color.hexText = .ok t) : IsWord t := by
  obtain ⟨⟨red, green, blue⟩, -, hText⟩ := bind_eq_ok.1 h
  cases hText
  refine ⟨List.cons_ne_nil _ _, Plain.cons (by decide) ?_⟩
  exact ((plain_channelHex red).append (plain_channelHex green)).append (plain_channelHex blue)

theorem isStyle_of_isWord {property value : Text} (hProperty : IsWord property)
    (hOther : property ∉ Utility.lengthProperties) (hValue : IsWord value) :
    IsStyle (property, value) :=
  ⟨hProperty, .word hValue, fun h => absurd h hOther⟩

theorem isStyle_pixels {property : Text} (hProperty : IsWord property) (x : Binary64) :
    IsStyle (entry property (pixels x)) :=
  ⟨hProperty, .word (isWord_pixels x), fun _ => Nat.le_trans (length_pixels_le x) (by decide)⟩

/-! ## Lists of styles -/

theorem areStyles_nil : AreStyles [] := by simp [AreStyles]

theorem AreStyles.cons {d : Text × Text} {ds : List (Text × Text)} (hd : IsStyle d)
    (hds : AreStyles ds) : AreStyles (d :: ds) := List.forall_mem_cons.2 ⟨hd, hds⟩

theorem AreStyles.append {ds es : List (Text × Text)} (hds : AreStyles ds) (hes : AreStyles es) :
    AreStyles (ds ++ es) := by
  intro d hd
  rcases List.mem_append.1 hd with hd | hd
  · exact hds d hd
  · exact hes d hd

theorem areStyles_singleton {d : Text × Text} (h : IsStyle d) : AreStyles [d] :=
  .cons h areStyles_nil

theorem areStyles_if {d : Text × Text} (h : IsStyle d) (b : Bool) :
    AreStyles (if b then [d] else []) := by
  cases b with
  | false => exact areStyles_nil
  | true => exact areStyles_singleton h

theorem areStyles_toList_map {α : Type} {f : α → Text × Text} (h : ∀ a, IsStyle (f a))
    (o : Option α) : AreStyles (o.map f).toList := by
  cases o with
  | none => exact areStyles_nil
  | some a => exact areStyles_singleton (h a)

/-! ## The parts of a description -/

theorem areStyles_alignment {property : Text} {names : List (Text × Text)} {v : Json}
    {ds : List (Text × Text)} (hProperty : IsWord property)
    (hOther : property ∉ Utility.lengthProperties) (hNames : ∀ row ∈ names, IsWord row.2)
    (h : alignment property names v = .ok ds) : AreStyles ds := by
  unfold alignment at h
  split at h
  · rename_i s
    cases h
    cases hValue : names.lookup s with
    | none => exact areStyles_nil
    | some value =>
      have hRow := hNames _ (mem_of_lookup hValue)
      exact areStyles_singleton (isStyle_of_isWord hProperty hOther hRow)
  · cases h
  · cases h
  · cases h
    exact areStyles_nil

theorem areStyles_paintDeclaration {property : Text} {paints : List Paint}
    {ds : List (Text × Text)} (hProperty : IsWord property)
    (hOther : property ∉ Utility.lengthProperties)
    (h : paintDeclaration property paints = .ok ds) : AreStyles ds := by
  unfold paintDeclaration at h
  split at h
  · cases h
    exact areStyles_nil
  · obtain ⟨hex, hHex, hEq⟩ := bind_eq_ok.1 h
    cases hEq
    have hWord := isWord_hexText (mapError_eq_ok.1 hHex)
    exact areStyles_singleton (isStyle_of_isWord hProperty hOther hWord)

/-- The four sides of a padding are four words. -/
theorem isStyle_padding (l : AutoLayout) :
    IsStyle (entry "padding" (join [.char ' '] ([l.top, l.right, l.bottom, l.left].map pixels))) := by
  refine ⟨(by decide : IsWord "padding"), plainWords_join (by simp) ?_, fun _ => ?_⟩
  · intro w hw
    obtain ⟨x, -, rfl⟩ := List.mem_map.1 hw
    exact isWord_pixels x
  · have hTop := length_pixels_le l.top
    have hRight := length_pixels_le l.right
    have hBottom := length_pixels_le l.bottom
    have hLeft := length_pixels_le l.left
    simp only [entry, List.map_cons, List.map_nil, join, List.length_append, List.length_singleton]
    omega

theorem areStyles_layout {l : AutoLayout} {ds : List (Text × Text)} (h : l.style = .ok ds) :
    AreStyles ds := by
  obtain ⟨primary, hPrimary, h⟩ := bind_eq_ok.1 h
  obtain ⟨counter, hCounter, h⟩ := bind_eq_ok.1 h
  cases h
  have hDisplay : IsStyle (entry "display" "flex") :=
    isStyle_of_isWord (by decide) (by decide) (by decide)
  have hAlign := areStyles_alignment (by decide) (by decide) (by decide) hPrimary
  have hAcross := areStyles_alignment (by decide) (by decide) (by decide) hCounter
  have hGap := areStyles_if (isStyle_pixels (by decide : IsWord "gap") l.gap) l.gap.isNonzero
  have hPadding := areStyles_if (isStyle_padding l)
    ([l.top, l.right, l.bottom, l.left].any (·.isNonzero))
  refine (((AreStyles.append ?_ hAlign).append hAcross).append hGap).append hPadding
  refine AreStyles.cons hDisplay (areStyles_singleton (isStyle_of_isWord (by decide) (by decide) ?_))
  cases l.direction <;> decide

theorem areStyles_text {fills : List Paint} {s : TextStyle} {ds : List (Text × Text)}
    (h : s.style fills = .ok ds) : AreStyles ds := by
  obtain ⟨color, hColor, h⟩ := bind_eq_ok.1 h
  obtain ⟨align, hAlign, h⟩ := bind_eq_ok.1 h
  cases h
  have hColors := areStyles_paintDeclaration (by decide) (by decide) hColor
  have hAligns := areStyles_alignment (by decide) (by decide) (by decide) hAlign
  have hSize := areStyles_toList_map (isStyle_pixels (by decide : IsWord "font-size")) s.size
  have hWeight := areStyles_toList_map
    (fun w =>
      isStyle_of_isWord (by decide : IsWord "font-weight") (by decide) (isWord_ofInt w.value))
    s.weight
  exact ((hColors.append hSize).append hWeight).append hAligns

theorem areStyles_border {s : Surface} {ds : List (Text × Text)} (h : s.border = .ok ds) :
    AreStyles ds := by
  unfold Surface.border at h
  split at h
  · cases h
    exact areStyles_nil
  · obtain ⟨hex, hHex, h⟩ := bind_eq_ok.1 h
    cases h
    have hWord := isWord_hexText (mapError_eq_ok.1 hHex)
    refine areStyles_singleton ⟨(by decide : IsWord "border"), ?_, fun hMem => ?_⟩
    · have hSolid : PlainWords ("solid" ++ .char ' ' :: hex) := .space (by decide) (.word hWord)
      have hWords := PlainWords.space
        (isWord_pixels ((s.strokeWeight.filter (·.isNonzero)).getD .one)) hSolid
      simpa [entry, ofString] using hWords
    · exact absurd hMem (by decide : ("border" : Text) ∉ Utility.lengthProperties)

theorem areStyles_surface {s : Surface} {ds : List (Text × Text)} (h : s.style = .ok ds) :
    AreStyles ds := by
  obtain ⟨fill, hFill, h⟩ := bind_eq_ok.1 h
  obtain ⟨border, hBorder, h⟩ := bind_eq_ok.1 h
  cases h
  have hFills := areStyles_paintDeclaration (by decide) (by decide) hFill
  have hRadius := areStyles_toList_map (isStyle_pixels (by decide : IsWord "border-radius"))
    (s.cornerRadius.filter (·.isNonzero))
  exact (hFills.append (areStyles_border hBorder)).append hRadius

theorem areStyles_box (b : Box) : AreStyles b.style :=
  .cons (isStyle_pixels (by decide) b.width)
    (areStyles_singleton (isStyle_pixels (by decide) b.height))

/-! ## Descriptions -/

theorem areStyles_look {content : Content} {ds : List (Text × Text)} (h : content.look = .ok ds) :
    AreStyles ds := by
  cases content with
  | page =>
    cases h
    exact areStyles_nil
  | container surface layout =>
    cases layout with
    | none => exact areStyles_surface h
    | some layout =>
      obtain ⟨arranged, hLayout, h⟩ := bind_eq_ok.1 h
      obtain ⟨painted, hSurface, h⟩ := bind_eq_ok.1 h
      cases h
      exact (areStyles_layout hLayout).append (areStyles_surface hSurface)
  | shape surface => exact areStyles_surface h
  | text characters fills box style => exact areStyles_text h
  | unknown rawType =>
    cases h
    exact areStyles_nil

theorem areStyles_declarations {n : Node} {ds : Declarations} (h : n.declarations = .ok ds) :
    AreStyles ds.entries := by
  obtain ⟨look, hLook, hEq⟩ := bind_eq_ok.1 h
  cases hEq
  have hBox : AreStyles ((n.content.box?.map Box.style).getD []) := by
    cases n.content.box? with
    | none => exact areStyles_nil
    | some box => exact areStyles_box box
  intro d hd
  exact ((areStyles_look hLook).append hBox) d (OrderedMap.mem_ofList hd)

theorem areWritable_declarations {n : Node} {ds : Declarations} (h : n.declarations = .ok ds) :
    AreWritable ds where
  isDeclaration := fun d hd => (areStyles_declarations h d hd).isDeclaration
  noSlash := fun d hd => (areStyles_declarations h d hd).noSlash

/-- The declarations of a node have classes under all policies. -/
theorem exists_classes_declarations {n : Node} {ds : Declarations} (h : n.declarations = .ok ds)
    (policies : Policies) : ∃ classes, Utility.classes policies ds = .ok classes := by
  cases hClasses : Utility.classes policies ds with
  | ok classes => exact ⟨classes, rfl⟩
  | error fault =>
    obtain ⟨-, -, d, hd, hLong⟩ := Utility.classes_eq_error_iff.1 hClasses
    exact absurd hLong (areStyles_declarations h d hd).not_overlong

end StyleScaffold.Design
