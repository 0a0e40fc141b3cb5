import StyleScaffold.Proofs.Number.ExactNumeral
import StyleScaffold.Proofs.Number.Quarter
import StyleScaffold.Proofs.Text.Trim
import StyleScaffold.Proofs.Utility.ClassText

/-!
# The lengths that classes state

A class on the numbered scale states four pixels for each step, a class with a value in brackets
states that value, and a named font size states its size (`pixels?`). The class of a literal need
not state the literal: a search finds neither the sign nor a leading point, and the scale takes the
quarter of a rounded number.

* `Pixel.scaleClass_spec`: what a class on the scale states.
* `Numeral.fitsScale_of_length_le`: a short numeral is stated as it is.
* `classes_literal_iff`: the properties and literals whose class states the literal.
-/

namespace StyleScaffold

open Text Css

/-! ## Reading the length of a class -/

namespace Utility

/-- The length behind the stem of a class: a value in brackets, or a step of four pixels. -/
def suffixPixels? : Text → Option Rat
  | '[' :: s => (Numeral.read? s).bind fun (n, rest) => if rest = "px]" then some n.number else none
  | s => if ! s.isEmpty && s.all isDigit then some ((4 * digitsValue s : Nat) : Rat) else none

/-- The size that a named class of font sizes states. -/
def namedPixels? (cls : Text) : Option Rat :=
  (fontSizeClasses.find? (·.2 = cls)).map fun row => (digitsValue row.1 : Rat)

/-- The length in pixels that a class with the stem states. -/
def pixels? (stem cls : Text) : Option Rat :=
  ((strip? (stem ++ "-") cls).bind suffixPixels?).or (namedPixels? cls)

theorem pixels?_literalClass (stem : Text) {n : Numeral} (h : n.IsWritten) :
    pixels? stem (Pixel.literalClass stem n.text) = some n.number := by
  have hStrip : strip? (stem ++ "-") (Pixel.literalClass stem n.text) =
      some (.char '[' :: (n.text ++ ofString "px]")) := by
    rw [strip?_eq_some_iff]
    simp [Pixel.literalClass, Pixel.bracketed, ofString]
  have hRead : Numeral.read? (n.text ++ ofString "px]") = some (n, ofString "px]") :=
    Numeral.read?_text_append h (by decide)
  rw [pixels?, hStrip, Option.bind_some, suffixPixels?, hRead, Option.bind_some]
  dsimp only
  rw [if_pos rfl, Option.some_or]

theorem pixels?_step (stem : Text) (k : Nat) :
    pixels? stem (stem ++ "-" ++ ofNat k) = some ((4 * k : Nat) : Rat) := by
  have hStrip : strip? (stem ++ "-") (stem ++ "-" ++ ofNat k) = some (ofNat k) :=
    strip?_eq_some_iff.2 rfl
  obtain ⟨hDigits, hValue⟩ := digitsValue_ofNat k
  have hSuffix : suffixPixels? (ofNat k) = some ((4 * k : Nat) : Rat) := by
    unfold suffixPixels?
    split
    · rename_i s hEq
      have hBracket : isDigit '[' = true := hDigits _ (by rw [hEq]; exact List.mem_cons_self)
      exact absurd hBracket (by decide)
    · rw [if_pos (by simpa using ⟨ofNat_ne_nil k, hDigits⟩), hValue]
  rw [pixels?, hStrip, Option.bind_some, hSuffix, Option.some_or]

theorem pixels?_fontSizeClasses :
    ∀ row ∈ fontSizeClasses, pixels? "text" row.2 = some (digitsValue row.1 : Rat) := by
  decide +kernel

end Utility

/-! ## The numbered scale -/

namespace Numeral

/-- The numeral is not too large, and if it is rounded to a multiple of four, or to one of the two
numbers whose quarter is rounded to zero, then it is that number. -/
def FitsScale (n : Numeral) : Prop :=
  ∃ units h, n.value = .finite false units h ∧
    (units ≤ 2 ∨ 4 * Binary64.unitsPerOne ∣ units →
      n.number = ((units / Binary64.unitsPerOne : Nat) : Rat))

/-- Zero is not rounded. -/
theorem fitsScale_of_number_eq_zero {n : Numeral} (h : n.number = 0) : n.FitsScale := by
  have hLimit := Nat.lt_trans Binary64.unitsPerOne_pos Binary64.unitsPerOne_lt_unitsLimit
  have hUnits : Binary64.nearestUnits (0 * Binary64.unitsPerOne)
      (10 ^ (n.fraction.getD []).length) = 0 := by
    simp [Binary64.nearestUnits, roundHalfEven]
  refine ⟨0, hLimit, ?_, fun _ => by rw [h, Nat.zero_div]; rfl⟩
  simp only [value, Binary64.ofRatio, Binary64.ofUnits, number_eq_zero_iff.1 h, hUnits, hLimit,
    dif_pos]

/-- A numeral of at most fifteen digits is rounded to a multiple of four only if it is that
number. -/
theorem fitsScale_of_length_le {n : Numeral}
    (h : n.whole.length + (n.fraction.getD []).length ≤ 15) : n.FitsScale := by
  by_cases hZero : n.number = 0
  · exact fitsScale_of_number_eq_zero hZero
  rcases n.value_cases with ⟨hOver, -⟩ | ⟨-, units, hUnits, hValue⟩
  · exact absurd hOver (not_overflows (by omega))
  refine ⟨units, hUnits, hValue, ?_⟩
  have hNearest := Binary64.units_of_ofRatio hValue
  rw [number_eq_zero_iff] at hZero
  have hDen : 0 < 10 ^ (n.fraction.getD []).length := Nat.pow_pos (by decide)
  have hShortDen : 10 ^ (n.fraction.getD []).length ≤ 2 ^ 50 :=
    Nat.le_trans (Nat.pow_le_pow_right (by decide) (show _ ≤ 15 by omega)) (by decide)
  have hShort : digitsValue (n.whole ++ n.fraction.getD []) < 2 ^ 50 := by
    refine Nat.lt_of_lt_of_le (digitsValue_lt _) ?_
    rw [List.length_append]
    exact Nat.le_trans (Nat.pow_le_pow_right (by decide) h) (by decide)
  unfold number
  generalize digitsValue (n.whole ++ n.fraction.getD []) = digits at hNearest hShort hZero
  generalize 10 ^ (n.fraction.getD []).length = den at hNearest hDen hShortDen
  have hDigits := Nat.pos_of_ne_zero hZero
  rintro (hSmall | ⟨k, hk⟩)
  · have := Binary64.two_pow_le_nearestUnits_of_short hDigits hDen hShortDen
    omega
  · have hWhole : units = 4 * k * Binary64.unitsPerOne := by rw [hk, Nat.mul_right_comm]
    have hExact := Binary64.eq_mul_of_nearestUnits_eq hDigits hShort hDen hShortDen
      (hNearest.symm.trans hWhole)
    have hNe : (den : Rat) ≠ 0 := by
      rw [ne_eq, Rat.natCast_eq_zero_iff]
      omega
    rw [hWhole, Nat.mul_div_cancel _ Binary64.unitsPerOne_pos, hExact, Rat.natCast_mul]
    grind

end Numeral

namespace Pixel

/-- A class on the scale states the number of the numeral just where that fits. -/
theorem scaleClass_spec (stem : Text) {n : Numeral} (hn : n.IsWritten) :
    (∃ cls x, scaleClass stem n.text n.value = .ok cls ∧ Utility.pixels? stem cls = some x ∧
      (x = n.number ↔ n.FitsScale) ∧ (x = n.number ∨ ∃ k : Nat, x = k)) ∨
    scaleClass stem n.text n.value = .error .tooLarge ∧ ¬ n.FitsScale := by
  rcases n.value_cases with ⟨hOver, hValue⟩ | ⟨-, units, h, hValue⟩
  · right
    refine ⟨scaleClass_eq_error_iff.2 ⟨rfl, hOver⟩, ?_⟩
    rintro ⟨units, h, hFinite, -⟩
    rw [hValue] at hFinite
    cases hFinite
  · left
    have hFits : n.FitsScale ↔ (units ≤ 2 ∨ 4 * Binary64.unitsPerOne ∣ units →
        n.number = ((units / Binary64.unitsPerOne : Nat) : Rat)) := by
      constructor
      · rintro ⟨units', h', hFinite, hExact⟩
        rw [hValue] at hFinite
        cases hFinite
        exact hExact
      · intro hExact
        exact ⟨units, h, hValue, hExact⟩
    have hWhole := Binary64.whole?_quarter false h (Binary64.gridStep_dvd_of_ofRatio hValue)
    rw [← hValue] at hWhole
    by_cases hStep : units ≤ 2 ∨ 4 * Binary64.unitsPerOne ∣ units
    · -- a step of the scale, which states the rounded number
      rw [if_pos hStep] at hWhole
      have hFour : units / Binary64.unitsPerOne = 4 * (units / (4 * Binary64.unitsPerOne)) := by
        have hOne : 2 ^ 2 ≤ Binary64.unitsPerOne := Binary64.two_pow_le_unitsPerOne (by decide)
        rcases hStep with hSmall | ⟨k, rfl⟩
        · rw [Nat.div_eq_of_lt (by omega), Nat.div_eq_of_lt (by omega)]
        · rw [Nat.mul_div_cancel_left k (by omega), Nat.mul_right_comm,
            Nat.mul_div_cancel _ (by omega)]
      generalize units / (4 * Binary64.unitsPerOne) = k at hWhole hFour
      refine ⟨stem ++ "-" ++ ofNat k, ((4 * k : Nat) : Rat), ?_, Utility.pixels?_step stem k, ?_,
        Or.inr ⟨4 * k, rfl⟩⟩
      · rw [scaleClass, hWhole]
        rfl
      · rw [hFits, hFour, eq_comm]
        exact ⟨fun hEq _ => hEq, fun hEq => hEq hStep⟩
    · -- the text as it is written
      rw [if_neg hStep] at hWhole
      refine ⟨literalClass stem n.text, n.number, ?_, Utility.pixels?_literalClass stem hn, ?_,
        Or.inl rfl⟩
      · obtain ⟨part, hPart, hQuarter⟩ := Binary64.dividedBy_finite false h (k := 4) (by decide)
        rw [scaleClass, hWhole, hValue, hQuarter]
        rfl
      · rw [hFits]
        exact ⟨fun _ hEq => absurd hEq hStep, fun _ => rfl⟩

end Pixel

/-! ## Lengths in a stylesheet -/

/-- A length in pixels: a sign, if any, and digits with a point in front of them, between them or
not at all. -/
structure PixelLiteral where
  sign : Text
  whole : Text
  fraction : Option Text
  sign_mem : sign ∈ ([[], "+", "-"] : List Text)
  isDigit_whole : ∀ c ∈ whole, isDigit c = true
  isDigit_fraction : ∀ part ∈ fraction, part ≠ [] ∧ ∀ c ∈ part, isDigit c = true
  whole_or_fraction : whole ≠ [] ∨ fraction.isSome = true

namespace PixelLiteral

def numeral (l : PixelLiteral) : Numeral := ⟨l.whole, l.fraction⟩

def text (l : PixelLiteral) : Text := l.sign ++ l.numeral.text ++ "px"

/-- The number of pixels. -/
def length (l : PixelLiteral) : Rat := if l.sign = "-" then -l.numeral.number else l.numeral.number

/-- There is no minus, and there are digits in front of the point. -/
def IsPlain (l : PixelLiteral) : Prop := l.sign ≠ "-" ∧ l.whole ≠ []

/-- The numeral that a search finds: it has no sign, and it does not start with a point. -/
def found (l : PixelLiteral) : Numeral :=
  if l.whole = [] then ⟨l.fraction.getD [], none⟩ else l.numeral

theorem isWritten_found (l : PixelLiteral) : l.found.IsWritten := by
  unfold found
  split
  · rename_i hWhole
    obtain ⟨part, hPart⟩ := Option.isSome_iff_exists.1 (l.whole_or_fraction.resolve_left (· hWhole))
    rw [hPart]
    exact ⟨l.isDigit_fraction part hPart, by simp⟩
  · rename_i hWhole
    exact ⟨⟨hWhole, l.isDigit_whole⟩, l.isDigit_fraction⟩

theorem pixelRead?_of_not_digit {c : CodePoint} (hc : isDigit c = false) (s : Text) :
    Pixel.read? (c :: s) = none := by
  simp [Pixel.read?, Numeral.read?, run?_eq, hc]

theorem pixelRead?_text {n : Numeral} (h : n.IsWritten) :
    Pixel.read? (n.text ++ ofString "px") = some n := by
  have hRead : Numeral.read? (n.text ++ ofString "px") = some (n, ofString "px") :=
    Numeral.read?_text_append h (by decide)
  rw [Pixel.read?, hRead]
  rfl

theorem solid_text (l : PixelLiteral) : Solid l.text := by
  have hSign : ∀ sign ∈ ([[], "+", "-"] : List Text), Solid sign := by decide
  have hDigits : ∀ s : Text, (∀ c ∈ s, isDigit c = true) → Solid s := fun s hs c hc =>
    isBlank_of_isCore (isCore_of_isDigit (hs c hc))
  have hWhole := hDigits _ l.isDigit_whole
  refine ((hSign _ l.sign_mem).append ?_).append (by decide)
  rw [Numeral.text, numeral]
  split
  · exact hWhole
  · rename_i part hPart
    exact (hWhole.append (by decide)).append (hDigits part (l.isDigit_fraction part hPart).2)

/-- What stands in front of the digits. -/
theorem exists_text_eq (l : PixelLiteral) :
    ∃ lead, (∀ c ∈ lead, isDigit c = false) ∧ (lead = [] ↔ l.sign = [] ∧ l.whole ≠ []) ∧
      l.text = lead ++ (l.found.text ++ ofString "px") := by
  have hSign : ∀ sign ∈ ([[], "+", "-"] : List Text), ∀ c ∈ sign, isDigit c = false := by decide
  by_cases hWhole : l.whole = []
  · refine ⟨l.sign ++ ".", ?_, by simp [ofString, hWhole], ?_⟩
    · rw [List.forall_mem_append]
      exact ⟨hSign _ l.sign_mem, by decide⟩
    · obtain ⟨part, hPart⟩ := Option.isSome_iff_exists.1 (l.whole_or_fraction.resolve_left (· hWhole))
      simp [text, found, numeral, Numeral.text, hWhole, hPart]
  · refine ⟨l.sign, hSign _ l.sign_mem, by simp [hWhole], ?_⟩
    rw [text, found, if_neg hWhole, List.append_assoc]

/-- A search starts behind the sign and the leading point. -/
theorem first?_text (l : PixelLiteral) : Pixel.first? l.text = some l.found := by
  obtain ⟨lead, hLead, -, hText⟩ := l.exists_text_eq
  rw [hText, Pixel.first?, firstMatch_append fun c hc => pixelRead?_of_not_digit (hLead c hc)]
  exact firstMatch_of_match (pixelRead?_text l.isWritten_found)

/-! ## The number that is found -/

theorem found_eq_numeral {l : PixelLiteral} (h : l.whole ≠ []) : l.found = l.numeral := if_neg h

theorem length_eq_zero_iff {l : PixelLiteral} : l.length = 0 ↔ l.numeral.number = 0 := by
  unfold length
  split
  · constructor <;> intro h <;> grind
  · rfl

theorem found_of_no_whole {l : PixelLiteral} (h : l.whole = []) :
    l.found.number = (digitsValue (l.fraction.getD []) : Rat) := by
  rw [found, if_pos h, Numeral.number_eq_of_none]

/-- The number found is zero for zero only. -/
theorem number_found_eq_zero_iff {l : PixelLiteral} : l.found.number = 0 ↔ l.length = 0 := by
  rw [length_eq_zero_iff]
  by_cases hWhole : l.whole = []
  · rw [found_of_no_whole hWhole, Numeral.number_eq_zero_iff, Rat.natCast_eq_zero_iff, numeral,
      hWhole, List.nil_append]
  · rw [found_eq_numeral hWhole]

/-- A whole number or the number found is the length just for zero and for
a plain literal whose number it is. -/
theorem eq_length_iff {l : PixelLiteral} {x : Rat} (hx : x = l.found.number ∨ ∃ k : Nat, x = k)
    (hZero : l.length = 0 → x = 0) :
    x = l.length ↔ l.length = 0 ∨ l.IsPlain ∧ x = l.found.number := by
  have hNonneg : 0 ≤ x := by
    rcases hx with rfl | ⟨k, rfl⟩
    · exact l.found.number_nonneg
    · exact Rat.natCast_nonneg
  have hNumber := l.numeral.number_nonneg
  by_cases hLength : l.length = 0
  · simp [hLength, hZero hLength]
  rw [or_iff_right hLength, IsPlain]
  by_cases hSign : l.sign = "-"
  · -- below zero, where no class is
    have hNeg : l.length = -l.numeral.number := if_pos hSign
    simp only [hSign, ne_eq, not_true_eq_false, false_and, iff_false]
    grind
  have hPos : l.length = l.numeral.number := if_neg hSign
  by_cases hWhole : l.whole = []
  · -- between zero and one, where no whole number is
    have hOne : l.numeral.number < 1 := by
      rw [numeral, hWhole]
      exact Numeral.number_lt_one
    obtain ⟨k, rfl⟩ : ∃ k : Nat, x = k := by
      rcases hx with rfl | hWholeNumber
      · exact ⟨_, found_of_no_whole hWhole⟩
      · exact hWholeNumber
    simp only [hWhole, ne_eq, not_true_eq_false, and_false, false_and, iff_false]
    intro hEq
    rw [← hPos, ← hEq, show (1 : Rat) = ((1 : Nat) : Rat) from rfl, Rat.natCast_lt_natCast] at hOne
    apply hLength
    rw [← hEq, Nat.lt_one_iff.1 hOne]
    rfl
  · rw [found_eq_numeral hWhole, hPos]
    simp [hSign, hWhole]

end PixelLiteral

/-! ## Classes of lengths -/

namespace Utility

/-- No class, or a single one that states the length. -/
def StatesOnly (stem : Text) (x : Rat) (cs : List Text) : Prop :=
  cs = [] ∨ ∃ cls, cs = [cls] ∧ pixels? stem cls = some x

theorem statesOnly_singleton {stem cls : Text} {x : Rat} :
    StatesOnly stem x [cls] ↔ pixels? stem cls = some x := by
  simp [StatesOnly]

/-- The stem of the classes of lengths. -/
def Rule.stem? : Rule → Option Text
  | .spacing stem => some stem
  | .radius => some "rounded"
  | .fontSize => some "text"
  | .size stem => some stem
  | _ => none

/-- On the scale, the first length states what the literal says just where that is zero, or where
the literal is plain and fits. -/
theorem lengthClasses_literal_iff (stem : Text) (ladderClass : Binary64 → Text)
    (l : PixelLiteral) :
    (∃ cs, lengthClasses .scale stem ladderClass l.text = .ok cs ∧ StatesOnly stem l.length cs) ↔
      l.length = 0 ∨ l.IsPlain ∧ l.numeral.FitsScale := by
  have hZero : l.length = 0 → l.found.FitsScale := fun h =>
    Numeral.fitsScale_of_number_eq_zero (PixelLiteral.number_found_eq_zero_iff.2 h)
  have hPlain : l.IsPlain → l.found = l.numeral := fun h => PixelLiteral.found_eq_numeral h.2
  simp only [lengthClasses, l.first?_text, map_eq_ok]
  rcases Pixel.scaleClass_spec stem l.isWritten_found with
    ⟨cls, x, hClass, hPixels, hFits, hWhole⟩ | ⟨hError, hFits⟩
  · have hStates : (∃ cs, (∃ cls', Pixel.scaleClass stem l.found.text l.found.value = .ok cls' ∧
        [cls'] = cs) ∧ StatesOnly stem l.length cs) ↔ x = l.length := by
      simp [hClass, statesOnly_singleton, hPixels]
    have hNone : l.length = 0 → x = 0 := fun h =>
      (hFits.2 (hZero h)).trans (PixelLiteral.number_found_eq_zero_iff.2 h)
    rw [hStates, PixelLiteral.eq_length_iff hWhole hNone, hFits]
    exact or_congr_right (and_congr_right fun h => by rw [hPlain h])
  · simp only [hError, reduceCtorEq, false_and, exists_false, false_iff, not_or, not_and]
    exact ⟨fun h => hFits (hZero h), fun h => by rwa [← hPlain h]⟩

theorem point_not_mem_fontSizeClasses : ∀ row ∈ fontSizeClasses, .char '.' ∉ row.1 := by decide

theorem fontSizeClass?_literal_iff (l : PixelLiteral) :
    StatesOnly "text" l.length (fontSizeClass? l.text).toList ↔ l.length = 0 ∨ l.IsPlain := by
  obtain ⟨cls, hClass, hPixels⟩ : ∃ cls, fontSizeClass? l.text = some cls ∧
      pixels? "text" cls = some l.found.number := by
    simp only [fontSizeClass?, l.first?_text, Option.map_some, Option.some.injEq]
    refine ⟨_, rfl, ?_⟩
    cases hRow : fontSizeClasses.lookup l.found.text with
    | none => exact pixels?_literalClass "text" l.isWritten_found
    | some cls =>
      have hMem := mem_of_lookup hRow
      have hWhole : l.found.number = (digitsValue l.found.text : Rat) :=
        Numeral.number_eq_of_not_mem (point_not_mem_fontSizeClasses _ hMem)
      rw [hWhole]
      exact pixels?_fontSizeClasses _ hMem
  have hNone : l.length = 0 → l.found.number = 0 := PixelLiteral.number_found_eq_zero_iff.2
  rw [hClass, Option.toList_some, statesOnly_singleton, hPixels, Option.some.injEq,
    PixelLiteral.eq_length_iff (Or.inl rfl) hNone]
  simp

/-- A width or a height is the whole literal, or nothing. -/
theorem sizeClass?_literal (stem : Text) (l : PixelLiteral) :
    StatesOnly stem l.length (sizeClass? stem l.text).toList := by
  have hFull : l.text ≠ "100%" := by
    intro hEq
    have hLast := congrArg List.getLast? hEq
    simp [PixelLiteral.text, ofString] at hLast
  rw [sizeClass?, l.solid_text.trim_eq, if_neg hFull]
  obtain ⟨lead, hLead, hNil, hText⟩ := l.exists_text_eq
  cases lead with
  | nil =>
    obtain ⟨hSign, hWhole⟩ := hNil.1 rfl
    have hLength : l.length = l.found.number := by
      rw [PixelLiteral.found_eq_numeral hWhole]
      exact if_neg (by rw [hSign]; decide)
    rw [hText, List.nil_append, PixelLiteral.pixelRead?_text l.isWritten_found, hLength]
    exact statesOnly_singleton.2 (pixels?_literalClass stem l.isWritten_found)
  | cons c lead =>
    rw [hText, List.cons_append,
      PixelLiteral.pixelRead?_of_not_digit (hLead c List.mem_cons_self)]
    exact Or.inl rfl

theorem Rule.statesOnly_classes_iff {rule : Rule} {stem : Text} (h : rule.stem? = some stem)
    (color : ColorPolicy) (l : PixelLiteral) :
    (∃ cs, rule.classes ⟨color, .scale⟩ l.text = .ok cs ∧ StatesOnly stem l.length cs) ↔
      rule.category = "size" ∨ l.length = 0 ∨
        l.IsPlain ∧ (rule.category = "font-size" ∨ l.numeral.FitsScale) := by
  cases rule with
  | spacing _ =>
    cases h
    simp [Rule.classes, lengthClasses_literal_iff, Rule.category, ofString]
  | radius =>
    cases h
    simp [Rule.classes, lengthClasses_literal_iff, Rule.category, ofString]
  | fontSize =>
    cases h
    have hSize : Rule.fontSize.category ≠ "size" := by decide
    have hFont : Rule.fontSize.category = "font-size" := rfl
    rw [or_iff_right hSize, hFont]
    simp [Rule.classes, fontSizeClass?_literal_iff]
  | size _ =>
    cases h
    simp [Rule.classes, sizeClass?_literal, Rule.category]
  | keyword _ => cases h
  | fontWeight => cases h
  | color _ _ => cases h
  | border => cases h

/-- Such a rule gives at most one class. -/
theorem Rule.exists_classes_eq {rule : Rule} {stem : Text} (h : rule.stem? = some stem)
    (color : ColorPolicy) (value : Text) :
    ∃ cls? : Except NumberFault (Option Text),
      rule.classes ⟨color, .scale⟩ value = cls?.map Option.toList := by
  have hLength : ∀ stem ladderClass, ∃ cls? : Except NumberFault (Option Text),
      lengthClasses .scale stem ladderClass value = cls?.map Option.toList := by
    intro stem ladderClass
    unfold lengthClasses
    cases Pixel.first? value with
    | none => exact ⟨.ok none, rfl⟩
    | some n =>
      refine ⟨(Pixel.scaleClass stem n.text n.value).map some, ?_⟩
      show (Pixel.scaleClass stem n.text n.value).map _ = _
      cases Pixel.scaleClass stem n.text n.value <;> rfl
  cases rule with
  | spacing stem => exact hLength stem fun x => stem ++ "-" ++ spacingLadder.label x
  | radius => exact hLength "rounded" radiusLadder.label
  | fontSize => exact ⟨.ok (fontSizeClass? value), rfl⟩
  | size stem => exact ⟨.ok (sizeClass? stem value), rfl⟩
  | keyword _ => cases h
  | fontWeight => cases h
  | color _ _ => cases h
  | border => cases h

/-- The properties that are lengths, with the stems of their classes. -/
def lengthStems : List (Text × Text) :=
  table [("padding", "p"), ("margin", "m"), ("gap", "gap"), ("border-radius", "rounded"),
    ("font-size", "text"), ("width", "w"), ("height", "h")]

theorem rule?_lengthStems :
    ∀ row ∈ lengthStems, trim row.1 = row.1 ∧ (rule? row.1).any (fun rule =>
      rule.stem? = some row.2 ∧
        (rule.category = ofString "size" ↔ row.1 ∈ (["width", "height"] : List Text)) ∧
        (rule.category = ofString "font-size" ↔ row.1 = ofString "font-size")) = true := by
  decide

/-- The search passes over a minus, and the class of a negative margin states a positive one. -/
theorem classes_negativeMargin :
    ∃ l : PixelLiteral, l.text = "-8px" ∧ l.length = -8 ∧
      classes ⟨.palette, .scale⟩ (.ofList [("margin", l.text)]) = .ok ["m-2"] ∧
      ¬ StatesOnly "m" l.length ["m-2"] := by
  refine ⟨⟨"-", "8", none, by decide, by decide, by decide, by decide⟩, by decide,
    by decide +kernel, eq_ok_of_toOption (by decide +kernel), ?_⟩
  rw [statesOnly_singleton]
  decide +kernel

/-- A property that is a length gets no class, or one that states the length, just where the whole
value is matched, where the length is zero, or where the literal has neither a minus nor a leading
point and, on the scale, is not rounded. -/
theorem classes_literal_iff {property stem : Text} (h : (property, stem) ∈ lengthStems)
    (color : ColorPolicy) (l : PixelLiteral) :
    (∃ cs, classes ⟨color, .scale⟩ (.ofList [(property, l.text)]) = .ok cs ∧
        StatesOnly stem l.length cs) ↔
      property ∈ (["width", "height"] : List Text) ∨ l.length = 0 ∨
        l.IsPlain ∧ (property = "font-size" ∨ l.numeral.FitsScale) := by
  obtain ⟨hTrim, hRow⟩ := rule?_lengthStems _ h
  obtain ⟨rule, hRule, hSpec⟩ := (Option.any_eq_true _ _).1 hRow
  obtain ⟨hStem, hSize, hFont⟩ := of_decide_eq_true hSpec
  have hClasses : classes ⟨color, .scale⟩ (.ofList [(property, l.text)]) =
      rule.classes ⟨color, .scale⟩ l.text := by
    obtain ⟨cls?, hOne⟩ := rule.exists_classes_eq hStem color l.text
    have hEntries : (OrderedMap.ofList [(property, l.text)]).entries = [(property, l.text)] := rfl
    rw [classes, hEntries, classesOfList, declarationClasses, hTrim, hRule]
    simp only [hOne]
    rcases cls? with fault | cls?
    · rfl
    · cases cls? <;> rfl
  rw [hClasses, Rule.statesOnly_classes_iff hStem, hSize, hFont]

theorem classes_gapOfTenAndAHalf :
    ∃ l : PixelLiteral, l.text = "10.5px" ∧
      ∃ cs, classes ⟨.palette, .scale⟩ (.ofList [("gap", l.text)]) = .ok cs ∧
        StatesOnly "gap" l.length cs := by
  let l : PixelLiteral := ⟨[], "10", some "5", by decide, by decide, by decide, by decide⟩
  have hPlain : l.IsPlain := ⟨by decide, by decide⟩
  have hFits : l.numeral.FitsScale := Numeral.fitsScale_of_length_le (by decide)
  exact ⟨l, by decide,
    (classes_literal_iff (by decide) .palette l).2 (Or.inr (Or.inr ⟨hPlain, Or.inr hFits⟩))⟩

end Utility

end StyleScaffold
