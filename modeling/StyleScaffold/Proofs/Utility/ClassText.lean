import StyleScaffold.Proofs.Except
import StyleScaffold.Proofs.Number.Numeral
import StyleScaffold.Proofs.OrderedMap
import StyleScaffold.Proofs.Text.Plain
import StyleScaffold.Proofs.Text.Words
import StyleScaffold.Utility.Classes

/-!
# The texts of classes

A class is a word without blanks. Most classes are made of the words of a table and of numerals, and
there is no quote in those (`IsToken`). Only a colour without a name goes into a class as it is
written, and then the class has a quote if the colour has one.

* `Rule.areClasses`: the classes of one value.
* `classes_spec`: the classes of declarations, and which declarations bring in a quote.
-/

namespace StyleScaffold.Utility

open Text Css

/-- Neither blanks nor quotes. -/
def Quiet (s : Text) : Prop := ∀ c ∈ s, isBlank c = false ∧ c ≠ '"'

instance (s : Text) : Decidable (Quiet s) :=
  inferInstanceAs (Decidable (∀ c ∈ s, isBlank c = false ∧ c ≠ '"'))

/-- A word without quotes. -/
def IsToken (s : Text) : Prop := s ≠ [] ∧ Quiet s

instance (s : Text) : Decidable (IsToken s) := inferInstanceAs (Decidable (_ ∧ _))

variable {s t stem value : Text}

theorem Quiet.append (hs : Quiet s) (ht : Quiet t) : Quiet (s ++ t) := by
  intro c hc
  rcases List.mem_append.1 hc with hc | hc
  · exact hs c hc
  · exact ht c hc

theorem quiet_of_plain (h : Plain s) : Quiet s := by
  intro c hc
  refine ⟨isBlank_of_isPlainChar (h c hc), ?_⟩
  rintro rfl
  have hPlain := h _ hc
  revert hPlain
  decide

theorem quiet_of_digits (h : ∀ c ∈ s, isDigit c = true ∨ c = '.') : Quiet s := by
  intro c hc
  rcases h c hc with hDigit | rfl
  · refine ⟨isBlank_of_isCore (isCore_of_isDigit hDigit), ?_⟩
    rintro rfl
    revert hDigit
    decide
  · decide

theorem IsToken.append (hs : IsToken s) (ht : Quiet t) : IsToken (s ++ t) :=
  ⟨List.append_ne_nil_of_left_ne_nil hs.1 t, hs.2.append ht⟩

theorem IsToken.isSolidWord (h : IsToken s) : IsSolidWord s := ⟨h.1, fun c hc => (h.2 c hc).1⟩

theorem IsToken.not_mem (h : IsToken s) : .char '"' ∉ s := fun hc => (h.2 _ hc).2 rfl

theorem isToken_bracketed (hStem : IsToken stem) (hValue : Quiet value) :
    IsToken (Pixel.bracketed stem value) :=
  ((hStem.append (by decide)).append hValue).append (by decide)

theorem isToken_literalClass (hStem : IsToken stem) (hValue : Quiet value) :
    IsToken (Pixel.literalClass stem value) :=
  isToken_bracketed hStem (hValue.append (by decide))

/-! ## Classes without colours -/

theorem isToken_getD_lookup {names : List (Text × Text)} (hNames : ∀ row ∈ names, IsToken row.2)
    (hElse : IsToken t) (key : Text) : IsToken ((names.lookup key).getD t) := by
  cases h : names.lookup key with
  | none => exact hElse
  | some cls => exact hNames _ (mem_of_lookup h)

theorem isToken_label {ladder : Ladder} (hSteps : ∀ step ∈ ladder.steps, IsToken step.2)
    (hLargest : IsToken ladder.largest) (x : Binary64) : IsToken (ladder.label x) := by
  unfold Ladder.label
  split
  · rename_i step hStep
    exact hSteps step (List.mem_of_find?_eq_some hStep)
  · exact hLargest

theorem quiet_of_read? {n : Numeral} (h : Pixel.read? s = some n) : Quiet n.text := by
  simp only [Pixel.read?, Option.bind_eq_bind, Option.bind_eq_some_iff,
    Option.ite_none_right_eq_some] at h
  obtain ⟨found, hRead, -, hEq⟩ := h
  cases hEq
  exact quiet_of_digits (Numeral.isDigit_of_mem_text hRead)

theorem quiet_of_first? {n : Numeral} (h : Pixel.first? s = some n) : Quiet n.text := by
  obtain ⟨_, _, -, hRead⟩ := exists_of_firstMatch h
  exact quiet_of_read? hRead

theorem isToken_scaleClass {x : Binary64} {cls : Text} (hStem : IsToken stem) (ht : Quiet t)
    (h : Pixel.scaleClass stem t x = .ok cls) : IsToken cls := by
  unfold Pixel.scaleClass at h
  dsimp only at h
  split at h
  · rename_i n _
    cases h
    exact (hStem.append (by decide)).append (quiet_of_plain (isWord_ofInt n).2)
  · obtain ⟨_, -, hEq⟩ := bind_eq_ok.1 h
    cases hEq
    exact isToken_literalClass hStem ht

theorem isToken_lengthClasses {policy : SpacingPolicy} {ladderClass : Binary64 → Text}
    {cs : List Text} (hStem : IsToken stem) (hLadder : ∀ x, IsToken (ladderClass x))
    (h : lengthClasses policy stem ladderClass value = .ok cs) : ∀ cls ∈ cs, IsToken cls := by
  unfold lengthClasses at h
  split at h
  · cases h
    simp
  · rename_i n hFirst
    cases policy with
    | bucket =>
      cases h
      simpa using hLadder n.value
    | scale =>
      obtain ⟨cls, hScale, hEq⟩ := map_eq_ok.1 h
      cases hEq
      simpa using isToken_scaleClass hStem (quiet_of_first? hFirst) hScale

theorem isToken_fontSizeClass? {cls : Text} (h : fontSizeClass? value = some cls) :
    IsToken cls := by
  obtain ⟨n, hFirst, rfl⟩ := Option.map_eq_some_iff.1 h
  exact isToken_getD_lookup (by decide) (isToken_literalClass (by decide) (quiet_of_first? hFirst)) _

theorem isToken_fontWeightClass? {cls : Text} (h : fontWeightClass? value = some cls) :
    IsToken cls := by
  obtain ⟨hNumber, hEq⟩ := Option.ite_none_right_eq_some.1 h
  rw [Bool.and_eq_true] at hNumber
  cases hEq
  have hDigits : Quiet (trim value) :=
    quiet_of_digits fun c hc => Or.inl (List.all_eq_true.1 hNumber.2 c hc)
  exact isToken_getD_lookup (by decide) (isToken_bracketed (by decide) hDigits) _

theorem isToken_sizeClass? {cls : Text} (hStem : IsToken stem)
    (h : sizeClass? stem value = some cls) : IsToken cls := by
  unfold sizeClass? at h
  split at h
  · cases h
    exact hStem.append (by decide)
  · obtain ⟨n, hRead, rfl⟩ := Option.map_eq_some_iff.1 h
    exact isToken_literalClass hStem (quiet_of_read? hRead)

theorem isToken_borderWidthClass {width : Numeral} {rest : Text}
    (h : Numeral.read? s = some (width, rest)) : IsToken (borderWidthClass width) := by
  unfold borderWidthClass
  split
  · decide
  · exact isToken_literalClass (by decide) (quiet_of_digits (Numeral.isDigit_of_mem_text h))

/-! ## Embedded colours -/

theorem solid_unspaced (color : Text) : Solid (unspaced color) := by
  intro c hc
  rcases mem_collapse hc with rfl | ⟨hSolid, -⟩
  · decide
  · exact hSolid

theorem mem_unspaced_iff {color : Text} {c : CodePoint} (hSolid : isBlank c = false) (hc : c ≠ '_') :
    c ∈ unspaced color ↔ c ∈ color := by
  rw [unspaced, mem_collapse_iff hSolid hc]
  constructor
  · exact fun h => (trim_sublist color).subset h
  · intro h
    obtain ⟨u, v, hu, hv, hEq⟩ := exists_trim color
    rw [hEq, List.mem_append, List.mem_append] at h
    rcases h with (h | h) | h
    · exact absurd h (not_mem_of_allBlank hu hSolid)
    · exact h
    · exact absurd h (not_mem_of_allBlank hv hSolid)

/-- A colour that goes into a class as it is written. -/
def unnamedColor? (policy : ColorPolicy) (color : Text) : Option Text :=
  if policy = .arbitrary ∧ colorName? color = none then some color else none

/-- The colour of a value that goes into a class as it is written. -/
def Rule.embeddedColor? (policy : ColorPolicy) (value : Text) : Rule → Option Text
  | .color _ _ => unnamedColor? policy value
  | .border => (solidBorder? (trim value)).bind fun found => unnamedColor? policy found.2
  | _ => none

/-- The colour of a declaration that goes into a class as it is written. -/
def embeddedColor? (policy : ColorPolicy) (d : Text × Text) : Option Text :=
  (rule? (trim d.1)).bind (Rule.embeddedColor? policy d.2)

/-- The classes are words, and a quote is in one of them exactly when it is in the colour. -/
structure AreClasses (cs : List Text) (color? : Option Text) : Prop where
  isSolidWord : ∀ cls ∈ cs, IsSolidWord cls
  quote_iff : (∃ cls ∈ cs, .char '"' ∈ cls) ↔ ∃ color ∈ color?, .char '"' ∈ color

theorem areClasses_of_tokens {cs : List Text} (h : ∀ cls ∈ cs, IsToken cls) :
    AreClasses cs none where
  isSolidWord cls hcls := (h cls hcls).isSolidWord
  quote_iff := by
    constructor
    · rintro ⟨cls, hcls, hQuote⟩
      exact absurd hQuote (h cls hcls).not_mem
    · rintro ⟨_, hNone, -⟩
      cases hNone

theorem AreClasses.cons {cs : List Text} {color? : Option Text} (hs : IsToken s)
    (h : AreClasses cs color?) : AreClasses (s :: cs) color? where
  isSolidWord := List.forall_mem_cons.2 ⟨hs.isSolidWord, h.isSolidWord⟩
  quote_iff := by
    rw [← h.quote_iff]
    simp [hs.not_mem]

theorem areClasses_bracketed (hStem : IsToken stem) (color : Text) :
    AreClasses [Pixel.bracketed stem (unspaced color)] (some color) where
  isSolidWord := by
    have hFront : IsToken (stem ++ "-[") := hStem.append (by decide)
    have hBack : Solid "]" := by decide
    have hSolid := (hFront.isSolidWord.2.append (solid_unspaced color)).append hBack
    rw [List.forall_mem_singleton]
    exact ⟨by simp [Pixel.bracketed, hStem.1], hSolid⟩
  quote_iff := by
    have hMarks : CodePoint.char '"' ∉ ("-[" : Text) ∧ CodePoint.char '"' ∉ ("]" : Text) := by decide
    have hColor : .char '"' ∈ unspaced color ↔ .char '"' ∈ color :=
      mem_unspaced_iff (by decide) (by decide)
    simp [Pixel.bracketed, hStem.not_mem, hMarks, hColor]

/-! ## All rules -/

theorem isToken_of_colorName? {name : Text} (hs : IsToken s) (h : colorName? value = some name) :
    IsToken (s ++ name) := by
  have hNames : ∀ row ∈ colorNames, Quiet row.2 := by decide
  exact hs.append (hNames _ (mem_of_lookup h))

theorem areClasses_colorClass {fallback : Text} (hStem : IsToken stem) (hFallback : IsToken fallback)
    (policy : ColorPolicy) (value : Text) :
    AreClasses [colorClass policy stem fallback value] (unnamedColor? policy value) := by
  unfold colorClass unnamedColor?
  cases hName : colorName? value with
  | some name =>
    have hClass := isToken_of_colorName? (hStem.append (by decide : Quiet "-")) hName
    rw [if_neg (by simp)]
    exact areClasses_of_tokens (List.forall_mem_singleton.2 hClass)
  | none =>
    cases policy with
    | palette => exact areClasses_of_tokens (List.forall_mem_singleton.2 hFallback)
    | arbitrary => exact areClasses_bracketed hStem value

theorem areClasses_borderColorClass? (policy : ColorPolicy) (color : Text) :
    AreClasses (borderColorClass? policy color).toList (unnamedColor? policy color) := by
  unfold borderColorClass? unnamedColor?
  cases hName : colorName? color with
  | some name =>
    have hClass := isToken_of_colorName? (by decide : IsToken "border-") hName
    rw [if_neg (by simp)]
    exact areClasses_of_tokens (List.forall_mem_singleton.2 hClass)
  | none =>
    cases policy with
    | palette => exact areClasses_of_tokens (by simp)
    | arbitrary => exact areClasses_bracketed (by decide) color

/-- Whether the words that the rule makes classes of are tokens. -/
def Rule.hasTokens : Rule → Bool
  | .keyword names => names.all fun row => decide (IsToken row.2)
  | .spacing stem => decide (IsToken stem)
  | .color stem fallback => decide (IsToken stem ∧ IsToken fallback)
  | .size stem => decide (IsToken stem)
  | _ => true

theorem hasTokens_rules : ∀ row ∈ rules, row.2.hasTokens = true := by decide

theorem exists_read?_of_solidBorder? {width : Numeral} {tint : Text}
    (h : solidBorder? s = some (width, tint)) : ∃ rest, Numeral.read? s = some (width, rest) := by
  simp only [solidBorder?, Option.bind_eq_bind, Option.bind_eq_some_iff,
    Option.ite_none_left_eq_some, Option.some.injEq, Prod.mk.injEq] at h
  obtain ⟨⟨n, rest⟩, hRead, -, -, -, -, -, -, -, -, -, rfl, -⟩ := h
  exact ⟨rest, hRead⟩

theorem areClasses_border {policies : Policies} {cs : List Text}
    (h : Rule.border.classes policies value = .ok cs) :
    AreClasses cs (Rule.border.embeddedColor? policies.color value) := by
  rw [Rule.classes] at h
  rw [Rule.embeddedColor?]
  cases hBorder : solidBorder? (trim value) with
  | none =>
    rw [hBorder] at h
    cases h
    exact areClasses_of_tokens (by simp)
  | some found =>
    obtain ⟨width, tint⟩ := found
    rw [hBorder] at h
    cases h
    obtain ⟨rest, hRead⟩ := exists_read?_of_solidBorder? hBorder
    exact (areClasses_borderColorClass? policies.color tint).cons (isToken_borderWidthClass hRead)

theorem Rule.areClasses {rule : Rule} {policies : Policies} {cs : List Text}
    (hRule : rule.hasTokens = true) (h : rule.classes policies value = .ok cs) :
    AreClasses cs (rule.embeddedColor? policies.color value) := by
  cases rule with
  | keyword names =>
    cases h
    refine areClasses_of_tokens fun cls hcls => ?_
    have hRow := mem_of_lookup (Option.mem_toList.1 hcls)
    exact of_decide_eq_true (List.all_eq_true.1 hRule _ hRow)
  | spacing stem =>
    have hStem : IsToken stem := of_decide_eq_true hRule
    rw [Rule.classes] at h
    refine areClasses_of_tokens (isToken_lengthClasses hStem (fun x => ?_) h)
    have hLabel : IsToken (spacingLadder.label x) := isToken_label (by decide) (by decide) x
    exact (hStem.append (by decide)).append hLabel.2
  | radius =>
    rw [Rule.classes] at h
    exact areClasses_of_tokens
      (isToken_lengthClasses (by decide) (isToken_label (by decide) (by decide)) h)
  | fontSize =>
    cases h
    exact areClasses_of_tokens fun cls hcls => isToken_fontSizeClass? (Option.mem_toList.1 hcls)
  | fontWeight =>
    cases h
    exact areClasses_of_tokens fun cls hcls => isToken_fontWeightClass? (Option.mem_toList.1 hcls)
  | color stem fallback =>
    cases h
    obtain ⟨hStem, hFallback⟩ := of_decide_eq_true hRule
    exact areClasses_colorClass hStem hFallback policies.color value
  | border => exact areClasses_border h
  | size stem =>
    cases h
    refine areClasses_of_tokens fun cls hcls => ?_
    exact isToken_sizeClass? (of_decide_eq_true hRule) (Option.mem_toList.1 hcls)

theorem areClasses_declarationClasses {policies : Policies} {d : Text × Text} {cs : List Text}
    (h : declarationClasses policies d = .ok cs) :
    AreClasses cs (embeddedColor? policies.color d) := by
  unfold declarationClasses at h
  unfold embeddedColor?
  cases hRule : rule? (trim d.1) with
  | none =>
    rw [hRule] at h
    cases h
    exact areClasses_of_tokens (by simp)
  | some rule =>
    rw [hRule] at h
    exact Rule.areClasses (hasTokens_rules _ (mem_of_lookup hRule)) h

/-- The classes of declarations are words, and a quote is in one of them exactly when it is in a
colour that goes into a class as it is written. -/
theorem classes_spec {policies : Policies} {ds : Declarations} {cs : List Text}
    (h : classes policies ds = .ok cs) :
    (∀ cls ∈ cs, IsSolidWord cls) ∧
      ((∃ cls ∈ cs, .char '"' ∈ cls) ↔
        ∃ d ∈ ds.entries, ∃ color ∈ embeddedColor? policies.color d, .char '"' ∈ color) := by
  obtain ⟨all, hAll, rfl⟩ := map_eq_ok.1 h
  simp only [List.mem_eraseDups]
  clear h
  generalize ds.entries = entries at hAll ⊢
  induction entries generalizing all with
  | nil =>
    cases hAll
    simp
  | cons d rest ih =>
    obtain ⟨here, hHere, hAll⟩ := bind_eq_ok.1 hAll
    obtain ⟨more, hMore, hAll⟩ := bind_eq_ok.1 hAll
    cases hAll
    have hClasses := areClasses_declarationClasses hHere
    obtain ⟨hWords, hQuote⟩ := ih more hMore
    refine ⟨fun cls hcls => ?_, ?_⟩
    · exact (List.mem_append.1 hcls).elim (hClasses.isSolidWord cls) (hWords cls)
    · simp only [List.mem_append, or_and_right, exists_or, List.mem_cons, exists_eq_left,
        hClasses.quote_iff, hQuote]

end StyleScaffold.Utility
