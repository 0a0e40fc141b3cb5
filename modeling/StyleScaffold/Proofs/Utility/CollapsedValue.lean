import StyleScaffold.Proofs.Number.Numeral
import StyleScaffold.Proofs.OrderedMap
import StyleScaffold.Utility.Classes

/-!
# Classes of collapsed values

A rule compares a value with words that have no blanks in them, or reads numerals and words with
blanks between, or writes underscores for the blanks. None of this depends on what the blanks in
the value are. Only a border's colour must not hold a line feed, and so the value may not.

* `Rule.classes_collapse`: a rule gives a collapsed value the classes of the value.
* `classes_collapse`: so do all the declarations of a map.
-/

namespace StyleScaffold.Utility

open Text Css

variable {f : CodePoint} {value : Text}

/-! ## Words without blanks -/

theorem lookup_of_not_solid {α : Type} {names : List (Text × α)}
    (hNames : ∀ row ∈ names, Solid row.1) (s : Text) (hs : ¬ Solid s) : names.lookup s = none := by
  rw [List.lookup_eq_none_iff]
  intro row hRow
  rw [bne_iff_ne]
  rintro rfl
  exact hs (hNames row hRow)

theorem lookup_trim_collapse {α : Type} {names : List (Text × α)}
    (hNames : ∀ row ∈ names, Solid row.1) (hf : isBlank f = true) (value : Text) :
    names.lookup (trim (collapse f value)) = names.lookup (trim value) := by
  rw [trim_collapse hf]
  exact apply_collapse hf (lookup_of_not_solid hNames) (trim value)

theorem colorName?_collapse (hf : isBlank f = true) (value : Text) :
    colorName? (collapse f value) = colorName? value :=
  lookup_trim_collapse (by decide) hf value

theorem unspaced_collapse (hf : isBlank f = true) (value : Text) :
    unspaced (collapse f value) = unspaced value := by
  rw [unspaced, trim_collapse hf, collapse_collapse hf, unspaced]

/-! ## One rule -/

theorem fontWeightClass?_collapse (hf : isBlank f = true) (value : Text) :
    fontWeightClass? (collapse f value) = fontWeightClass? value := by
  let classOf := fun number : Text =>
    if ! number.isEmpty && number.all isDigit then
      some ((fontWeightClasses.lookup number).getD (Pixel.bracketed "font" number))
    else none
  have hNone : ∀ s, ¬ Solid s → classOf s = none := by
    intro s hs
    refine if_neg ?_
    rw [Bool.and_eq_true]
    rintro ⟨-, hDigits⟩
    exact hs fun c hc => isBlank_of_isCore (isCore_of_isDigit (List.all_eq_true.1 hDigits c hc))
  have hClass := apply_collapse hf hNone (trim value)
  rwa [← trim_collapse hf] at hClass

theorem sizeClass?_collapse (hf : isBlank f = true) (stem value : Text) :
    sizeClass? stem (collapse f value) = sizeClass? stem value := by
  have hFull : (trim (collapse f value) = "100%") = (trim value = "100%") := by
    rw [trim_collapse hf]
    apply apply_collapse (F := (· = ("100%" : Text))) hf
    intro s hs
    refine eq_false ?_
    rintro rfl
    exact hs (by decide)
  simp only [sizeClass?, hFull]
  rw [trim_collapse hf, Pixel.read?_rewriting (isRewriting_collapse hf)]

theorem colorClass_collapse (hf : isBlank f = true) (policy : ColorPolicy)
    (stem fallback value : Text) :
    colorClass policy stem fallback (collapse f value) = colorClass policy stem fallback value := by
  unfold colorClass unnamedColorClass
  rw [colorName?_collapse hf, unspaced_collapse hf]

theorem borderColorClass?_collapse (hf : isBlank f = true) (policy : ColorPolicy) (color : Text) :
    borderColorClass? policy (collapse f color) = borderColorClass? policy color := by
  unfold borderColorClass?
  rw [colorName?_collapse hf, unspaced_collapse hf]

theorem run?_isBlank_collapse (hf : isBlank f = true) (s : Text) :
    (run? isBlank s = none ∧ run? isBlank (collapse f s) = none) ∨
      ∃ u v rest, run? isBlank s = some (u, rest) ∧
        run? isBlank (collapse f s) = some (v, collapse f rest) := by
  have hHead : (collapse f s).head?.any isBlank = s.head?.any isBlank := by
    cases s with
    | nil => rw [collapse_nil]
    | cons c s =>
      cases hc : isBlank c with
      | true => rw [collapse_cons_of_blank hc]; exact hf.trans hc.symm
      | false => rw [collapse_cons_of_solid hc]; rfl
  have hRest : (collapse f s).dropWhile isBlank = collapse f (s.dropWhile isBlank) :=
    trimLeft_collapse hf s
  rw [run?_eq, run?_eq, hHead, hRest]
  split
  · exact Or.inr ⟨_, _, _, rfl, rfl⟩
  · exact Or.inl ⟨rfl, rfl⟩

theorem isEmpty_or_lineFeed_collapse {color : Text} (h : .char '\n' ∉ color) :
    ((collapse (.char ' ') color).isEmpty || (collapse (.char ' ') color).contains (.char '\n')) =
      (color.isEmpty || color.contains (.char '\n')) := by
  have hNone : .char '\n' ∉ collapse (.char ' ') color := by
    intro hMem
    rcases mem_collapse hMem with hSpace | ⟨hBlank, -⟩
    · cases hSpace
    · exact absurd hBlank (by decide)
  rw [Bool.eq_iff_iff]
  simp [h, hNone, collapse_eq_nil_iff]

theorem solidBorder?_collapse (hLine : .char '\n' ∉ value) :
    solidBorder? (collapse (.char ' ') value) =
      (solidBorder? value).map (Prod.map id (collapse (.char ' '))) := by
  have hSpace : isBlank (.char ' ') = true := by decide
  have hT := isRewriting_collapse hSpace
  have hUnit : ∀ c ∈ ("px" : Text), isCore c = true := by decide
  have hSolid : ∀ c ∈ ("solid" : Text), isCore c = true := by decide
  unfold solidBorder?
  rw [Numeral.read?_rewriting hT]
  cases hWidth : Numeral.read? value with
  | none => rfl
  | some found =>
  obtain ⟨width, s⟩ := found
  simp only [Option.map_some, Prod.map_apply, Option.bind_eq_bind, Option.bind_some, id_eq,
    hT.strip?_rewriting hUnit]
  cases hPixels : strip? "px" s with
  | none => rfl
  | some t =>
  simp only [Option.map_some, Option.bind_some]
  rcases run?_isBlank_collapse hSpace t with ⟨hHere, hThere⟩ | ⟨u, v, rest, hHere, hThere⟩
  · rw [hHere, hThere]
    rfl
  rw [hHere, hThere]
  simp only [Option.bind_some, hT.strip?_rewriting hSolid]
  cases hStyle : strip? "solid" rest with
  | none => rfl
  | some w =>
  simp only [Option.map_some, Option.bind_some]
  rcases run?_isBlank_collapse hSpace w with ⟨hHere', hThere'⟩ | ⟨u', v', color, hHere', hThere'⟩
  · rw [hHere', hThere']
    rfl
  have hColor : .char '\n' ∉ color := by
    intro hMem
    apply hLine
    rw [Numeral.text_append_of_read? hWidth, strip?_eq_some_iff.1 hPixels, append_of_run? hHere,
      strip?_eq_some_iff.1 hStyle, append_of_run? hHere']
    simp [hMem]
  rw [hHere', hThere']
  simp only [Option.bind_some, isEmpty_or_lineFeed_collapse hColor]
  split <;> rfl

/-! ## All rules -/

/-- Whether the keywords that the rule compares values with have no blanks in them. -/
def Rule.hasSolidKeywords : Rule → Bool
  | .keyword names => names.all fun row => decide (Solid row.1)
  | _ => true

theorem hasSolidKeywords_rules : ∀ row ∈ rules, row.2.hasSolidKeywords = true := by decide

theorem lengthClasses_collapse (hf : isBlank f = true) (policy : SpacingPolicy) (stem : Text)
    (ladderClass : Binary64 → Text) (value : Text) :
    lengthClasses policy stem ladderClass (collapse f value) =
      lengthClasses policy stem ladderClass value := by
  unfold lengthClasses
  rw [Pixel.first?_rewriting (isRewriting_collapse hf)]

theorem Rule.classes_collapse {rule : Rule} (hRule : rule.hasSolidKeywords = true)
    (hLine : .char '\n' ∉ value) (policies : Policies) :
    rule.classes policies (collapse (.char ' ') value) = rule.classes policies value := by
  have hSpace : isBlank (.char ' ') = true := by decide
  cases rule with
  | keyword names =>
    have hNames : ∀ row ∈ names, Solid row.1 :=
      fun row hRow => of_decide_eq_true (List.all_eq_true.1 hRule row hRow)
    rw [Rule.classes, lookup_trim_collapse hNames hSpace, Rule.classes]
  | spacing stem => rw [Rule.classes, lengthClasses_collapse hSpace, Rule.classes]
  | radius => rw [Rule.classes, lengthClasses_collapse hSpace, Rule.classes]
  | fontSize =>
    rw [Rule.classes, fontSizeClass?, Pixel.first?_rewriting (isRewriting_collapse hSpace),
      Rule.classes, fontSizeClass?]
  | fontWeight => rw [Rule.classes, fontWeightClass?_collapse hSpace, Rule.classes]
  | color stem fallback => rw [Rule.classes, colorClass_collapse hSpace, Rule.classes]
  | border =>
    have hTrim : .char '\n' ∉ trim value := fun hMem => hLine ((trim_sublist value).subset hMem)
    rw [Rule.classes, trim_collapse hSpace, solidBorder?_collapse hTrim, Rule.classes]
    cases solidBorder? (trim value) with
    | none => rfl
    | some found =>
      show Except.ok (_ :: (borderColorClass? policies.color (collapse _ found.2)).toList) = _
      rw [borderColorClass?_collapse hSpace]
      rfl
  | size stem => rw [Rule.classes, sizeClass?_collapse hSpace, Rule.classes]

theorem declarationClasses_collapse {d : Text × Text} (hLine : .char '\n' ∉ d.2)
    (policies : Policies) :
    declarationClasses policies (d.1, collapse (.char ' ') d.2) = declarationClasses policies d := by
  unfold declarationClasses
  cases hRule : rule? (trim d.1) with
  | none => rfl
  | some rule =>
    exact Rule.classes_collapse (hasSolidKeywords_rules _ (mem_of_lookup hRule)) hLine policies

/-- Maps that differ in the blanks of their values only have the same classes. -/
theorem classes_collapse {ds es : Declarations} (hLine : ∀ d ∈ ds.entries, .char '\n' ∉ d.2)
    (hEntries : es.entries = ds.entries.map (Prod.map id (collapse (.char ' '))))
    (policies : Policies) : classes policies es = classes policies ds := by
  have hList : ∀ entries : List (Text × Text), (∀ d ∈ entries, .char '\n' ∉ d.2) →
      classesOfList policies (entries.map (Prod.map id (collapse (.char ' ')))) =
        classesOfList policies entries := by
    intro entries hAll
    induction entries with
    | nil => rfl
    | cons d rest ih =>
      rw [List.forall_mem_cons] at hAll
      rw [List.map_cons, classesOfList, classesOfList, ih hAll.2]
      exact congrArg (· >>= _) (declarationClasses_collapse hAll.1 policies)
  rw [classes, hEntries, hList _ hLine, classes]

end StyleScaffold.Utility
