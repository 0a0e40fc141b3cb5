import StyleScaffold.Design.Style
import StyleScaffold.Proofs.Number.Rounded
import StyleScaffold.Proofs.Number.SignificantDigits
import StyleScaffold.Proofs.Utility.PixelLength

/-!
# Lengths of a design read back

A length is written with six significant digits, and the class rules look for the first numeral with
the unit behind it. With the point in its place the rounded number is found
(`exists_numeral_positional`). Of a length with an exponent the search finds the digits of the
exponent (`exists_first?_scientific`).

* `first?_pixels_iff`: so the number that is read is the rounded one exactly where no exponent is
  written.
-/

namespace StyleScaffold

open Text

/-! ## Digits -/

namespace Text

theorem digitsValue_append (s t : Text) :
    digitsValue (s ++ t) = digitsValue s * 10 ^ t.length + digitsValue t := by
  induction t generalizing s with
  | nil => simp [digitsValue]
  | cons c t ih =>
    have hFront : digitsValue [c] = (digitValue? c).getD 0 := by simp [digitsValue]
    have hSplit : s ++ c :: t = (s ++ [c]) ++ t := by simp
    have hBack : digitsValue (c :: t) = digitsValue [c] * 10 ^ t.length + digitsValue t := ih [c]
    rw [hSplit, ih, digitsValue_concat, hBack, hFront, List.length_cons, Nat.pow_succ]
    grind

theorem digitsValue_copies_zero (n : Nat) : digitsValue (copies n '0') = 0 := by
  induction n with
  | zero => rfl
  | succ n ih =>
    rw [copies, List.replicate_succ', digitsValue_concat, ← copies, ih]
    decide

theorem isDigit_of_mem_copies {n : Nat} {c : CodePoint} (h : c ∈ copies n '0') :
    isDigit c = true := by
  rw [List.eq_of_mem_replicate h]
  decide

end Text

/-! ## A point in its place -/

theorem Numeral.number_of_fraction (whole part : Text) :
    number ⟨whole, some part⟩ = digitsValue (whole ++ part) * 10 ^ (-(part.length : Int)) := by
  rw [number, Option.getD_some, Rat.zpow_neg, tenZpow_natCast]
  exact Rat.div_def _ _

namespace Decimal

theorem exists_numeral_fraction {d : Decimal} {k : Nat} (hExponent : d.exponent = -(k : Int))
    (hPos : 0 < k) {whole part : Text} (hWhole : whole ≠ []) (hLength : part.length = k)
    (hDigits : ∀ c ∈ whole ++ part, isDigit c = true)
    (hValue : digitsValue (whole ++ part) = d.digits) :
    ∃ n : Numeral, n.IsWritten ∧ n.text = whole ++ "." ++ part ∧ n.number = d.number := by
  rw [List.forall_mem_append] at hDigits
  refine ⟨⟨whole, some part⟩, ⟨⟨hWhole, hDigits.1⟩, ?_⟩, rfl, ?_⟩
  · rintro _ ⟨⟩
    exact ⟨List.ne_nil_of_length_pos (by omega), hDigits.2⟩
  · rw [Numeral.number_of_fraction, hValue, hLength, number, hExponent]

/-- With the point in its place, the text of a decimal is a numeral that writes its number. -/
theorem exists_numeral_positional (d : Decimal) (limit : Int) :
    ∃ n : Numeral, n.IsWritten ∧ n.text = positional ⟨limit, false⟩ d ∧ n.number = d.number := by
  obtain ⟨hDigits, hValue⟩ := digitsValue_ofNat d.digits
  have hNil := ofNat_ne_nil d.digits
  simp only [positional, Bool.false_eq_true, if_false, List.append_nil]
  by_cases hWhole : 0 ≤ d.exponent
  · rw [if_pos hWhole]
    obtain ⟨k, hk⟩ : ∃ k : Nat, d.exponent = k := ⟨d.exponent.toNat, by omega⟩
    refine ⟨⟨ofNat d.digits ++ copies d.exponent.toNat '0', none⟩, ⟨⟨by simp [hNil], ?_⟩, by simp⟩,
      rfl, ?_⟩
    · rw [List.forall_mem_append]
      exact ⟨hDigits, fun c hc => isDigit_of_mem_copies hc⟩
    · rw [Numeral.number_eq_of_none, digitsValue_append, digitsValue_copies_zero, hValue, number, hk,
        Int.toNat_natCast, tenZpow_natCast, copies, List.length_replicate, Nat.add_zero,
        Rat.natCast_mul]
  · rw [if_neg hWhole]
    obtain ⟨k, hk⟩ : ∃ k : Nat, d.exponent = -(k : Int) := ⟨(-d.exponent).toNat, by omega⟩
    have hPos : 0 < k := by omega
    rw [hk, Int.neg_neg, Int.toNat_natCast]
    by_cases hPoint : k < (ofNat d.digits).length
    · rw [if_pos hPoint]
      refine exists_numeral_fraction hk hPos ?_ ?_ ?_ ?_
      · exact List.ne_nil_of_length_pos (by rw [List.length_take]; omega)
      · rw [List.length_drop]
        omega
      · rwa [List.take_append_drop]
      · rwa [List.take_append_drop]
    · rw [if_neg hPoint]
      have hZero : ("0." : Text) = "0" ++ "." := rfl
      rw [hZero, List.append_assoc]
      refine exists_numeral_fraction hk hPos (by decide) ?_ ?_ ?_
      · rw [List.length_append, copies, List.length_replicate]
        omega
      · simp only [List.forall_mem_append]
        exact ⟨by decide, fun c hc => isDigit_of_mem_copies hc, hDigits⟩
      · rw [digitsValue_append, digitsValue_append, digitsValue_copies_zero, hValue]
        have hNone : digitsValue (ofString "0") = 0 := by decide
        rw [hNone]
        omega

end Decimal

/-! ## An exponent -/

namespace Pixel

variable {u w : Text} {c : CodePoint}

/-- A length does not run over a character that is neither in a numeral nor in the unit. -/
theorem read?_append_cons (hu : ∀ d ∈ u, isDigit d = true ∨ d = '.') (hDigit : isDigit c = false)
    (hPoint : c ≠ '.') (hUnit : c ≠ 'p') : read? (u ++ c :: w) = none := by
  cases hRead : Numeral.read? (u ++ c :: w) with
  | none => simp [read?, hRead]
  | some found =>
    obtain ⟨n, rest⟩ := found
    cases hStrip : strip? "px" rest with
    | none => simp [read?, hRead, startsWith, hStrip]
    | some tail =>
      have hText := Numeral.text_append_of_read? hRead
      have hNumeral := Numeral.isDigit_of_mem_text hRead
      rw [strip?_eq_some_iff.1 hStrip] at hText
      have hRest : ofString "px" ++ tail = .char 'p' :: (.char 'x' :: tail) := rfl
      rw [hRest] at hText
      rcases append_eq_append_cons hText with ⟨t, hFront, -⟩ | ⟨t, hFront, hBack⟩
      · have hLetter := hu 'p' (by rw [hFront]; simp)
        exact absurd hLetter (by decide)
      · cases t with
        | nil => exact absurd (List.cons.inj hBack).1 hUnit
        | cons d t =>
          have hMem := hNumeral d (by rw [hFront]; simp)
          rw [← (List.cons.inj hBack).1, hDigit] at hMem
          exact absurd hMem (by simp [hPoint])

theorem first?_append_cons (hu : ∀ d ∈ u, isDigit d = true ∨ d = '.') (hDigit : isDigit c = false)
    (hPoint : c ≠ '.') (hUnit : c ≠ 'p') : first? (u ++ c :: w) = first? w := by
  induction u with
  | nil =>
    have hNone : read? (c :: w) = none := read?_append_cons (u := []) (by simp) hDigit hPoint hUnit
    rw [List.nil_append, first?, firstMatch, hNone, ← first?]
  | cons d u ih =>
    have hNone : read? (d :: u ++ c :: w) = none := read?_append_cons hu hDigit hPoint hUnit
    rw [List.cons_append] at hNone ⊢
    rw [first?, firstMatch, hNone, ← first?]
    exact ih fun e he => hu e (List.mem_cons_of_mem d he)

end Pixel

namespace Decimal

/-- The search passes over the digits in front of the exponent and over its sign. -/
theorem exists_first?_scientific (d : Decimal) :
    ∃ n, Pixel.first? (scientific d ++ "px") = some n ∧
      n.number = (d.leadingExponent.natAbs : Rat) := by
  obtain ⟨mantissa, hMantissa, -, hText⟩ := exists_scientific d
  obtain ⟨hDigits, -⟩ := digitsValue_ofNat d.digits
  obtain ⟨hExponent, hValue⟩ := digitsValue_ofNat d.leadingExponent.natAbs
  have hFront : ∀ c ∈ mantissa, isDigit c = true ∨ c = '.' := fun c hc =>
    (hMantissa c hc).imp_left (hDigits c)
  have hNil := ofNat_ne_nil d.leadingExponent.natAbs
  obtain ⟨sign, hSign, hSignText⟩ : ∃ sign : CodePoint, sign ∈ (["-", "+"] : List Text).flatten ∧
      (if d.leadingExponent < 0 then ("-" : Text) else "+") = [sign] := by
    split
    · exact ⟨.char '-', by decide, rfl⟩
    · exact ⟨.char '+', by decide, rfl⟩
  have hOther : ∀ c ∈ (["-", "+"] : List Text).flatten,
      isDigit c = false ∧ c ≠ .char '.' ∧ c ≠ .char 'p' := by decide
  obtain ⟨hNoDigit, hNoPoint, hNoUnit⟩ := hOther sign hSign
  let n : Numeral := ⟨copies (2 - (ofNat d.leadingExponent.natAbs).length) '0' ++
    ofNat d.leadingExponent.natAbs, none⟩
  have hn : n.IsWritten := by
    refine ⟨⟨by simp [n, hNil], ?_⟩, by simp [n]⟩
    rw [List.forall_mem_append]
    exact ⟨fun c hc => isDigit_of_mem_copies hc, hExponent⟩
  refine ⟨n, ?_, ?_⟩
  · have hSplit : scientific d ++ ofString "px" =
        mantissa ++ .char 'e' :: ([] ++ sign :: (n.text ++ ofString "px")) := by
      rw [hText, exponentText, hSignText]
      simp [n, Numeral.text, ofString]
    rw [hSplit, Pixel.first?_append_cons hFront (by decide) (by decide) (by decide),
      Pixel.first?_append_cons (by simp) hNoDigit hNoPoint hNoUnit]
    exact firstMatch_of_match (PixelLiteral.pixelRead?_text hn)
  · rw [Numeral.number_eq_of_none, digitsValue_append, digitsValue_copies_zero, hValue, Nat.zero_mul,
      Nat.zero_add]

end Decimal

/-! ## Lengths -/

theorem Binary64.textWith_of_pos (decimal : Nat → Decimal) (layout : DecimalLayout) {units : Nat}
    (h : 0 < units) (bounded : units < unitsLimit) :
    textWith decimal layout (.finite false units bounded) = (decimal units).layOut layout := by
  rw [textWith, if_neg (Nat.ne_of_gt h)]
  rfl

namespace Design

variable {x : Binary64} {v : Rat}

/-- A positive number has units, and its text is that of the decimal found for them. -/
theorem exists_units (h : x.number? = some v) (hPos : 0 < v) :
    ∃ units : Nat, 0 < units ∧ units < Binary64.unitsLimit ∧
      v = (units : Rat) / Binary64.unitsPerOne ∧
      pixels x = (Binary64.significant 6 units).layOut ⟨6, false⟩ ++ "px" := by
  cases x with
  | finite negative units bounded =>
    have hUnit : (0 : Rat) < Binary64.unitsPerOne := Rat.natCast_pos.2 Binary64.unitsPerOne_pos
    have hNumber : v = (Binary64.signed negative units : Rat) / Binary64.unitsPerOne :=
      (Option.some.inj h).symm
    have hSigned : (0 : Rat) < Binary64.signed negative units := by
      rwa [hNumber, Rat.lt_div_iff hUnit, Rat.zero_mul] at hPos
    have hCast : 0 < Binary64.signed negative units := Rat.intCast_pos.1 hSigned
    cases negative with
    | false =>
      have hSame : (Binary64.signed false units : Rat) = units := Rat.intCast_natCast units
      have hUnits : 0 < units := Int.natCast_pos.1 hCast
      refine ⟨units, hUnits, bounded, by rw [hNumber, hSame], ?_⟩
      rw [pixels, Binary64.rounded, Binary64.textWith_of_pos _ _ hUnits]
    | true =>
      have hNeg : Binary64.signed true units = -(units : Int) := rfl
      omega
  | infinite negative => cases h
  | nan => cases h

/-- Where the point is in its place. -/
theorem isPositional_significant_iff {units : Nat} (h : 0 < units) :
    -4 ≤ (Binary64.significant 6 units).leadingExponent ∧
        (Binary64.significant 6 units).leadingExponent < 6 ↔
      1999999 / 20000000000 ≤ (units : Rat) / Binary64.unitsPerOne ∧
        (units : Rat) / Binary64.unitsPerOne < 1999999 / 2 := by
  have hLow := Binary64.le_leadingExponent_significant_iff h (by decide : 0 < 6) (-4)
  have hHigh := Binary64.le_leadingExponent_significant_iff h (by decide : 0 < 6) 6
  have hSmall : ((2 * 10 ^ 6 - 1 : Nat) : Rat) * 10 ^ ((-4 : Int) - (6 : Nat)) =
      1999999 / 10000000000 := by decide +kernel
  have hLarge : ((2 * 10 ^ 6 - 1 : Nat) : Rat) * 10 ^ ((6 : Int) - (6 : Nat)) = 1999999 := by
    decide +kernel
  rw [hSmall] at hLow
  rw [hLarge] at hHigh
  rw [hLow, ← Int.not_le, hHigh]
  generalize (units : Rat) / Binary64.unitsPerOne = v
  clear hLow hHigh hSmall hLarge
  grind

/-- The scientific notation starts at a million, and the search finds the exponent. -/
theorem not_roundsTo_million :
    ¬ ∀ (x : Binary64) (v : Rat), x.number? = some v → 0 < v →
      ∃ n, Pixel.first? (pixels x) = some n ∧ RoundsTo 6 v n.number := by
  intro h
  have hNumber : (Binary64.ofRatio false 1000000 1).number? = some 1000000 := by decide +kernel
  have hFound : Pixel.first? (pixels (.ofRatio false 1000000 1)) = some ⟨"06", none⟩ := by
    decide +kernel
  obtain ⟨n, hFirst, hRounds⟩ := h _ _ hNumber (by decide)
  rw [hFound] at hFirst
  cases hFirst
  have hMillion : RoundsTo 6 1000000 1000000 :=
    ⟨1, 100000, 100000, by decide +kernel, by decide +kernel, by decide +kernel,
      ⟨by decide +kernel, by decide +kernel, by decide +kernel⟩, by decide +kernel⟩
  have hSame := hRounds.unique hMillion
  revert hSame
  decide +kernel

/-- A length is found in its text, and it is the number rounded to six significant digits just where
that number is written with the point in its place. -/
theorem first?_pixels_iff (h : x.number? = some v) (hPos : 0 < v) :
    ∃ n, Pixel.first? (pixels x) = some n ∧
      (RoundsTo 6 v n.number ↔ 1999999 / 20000000000 ≤ v ∧ v < 1999999 / 2) := by
  obtain ⟨units, hUnits, hLimit, rfl, hText⟩ := exists_units h hPos
  have hRounds : RoundsTo 6 ((units : Rat) / Binary64.unitsPerOne)
      (Binary64.significant 6 units).number := Binary64.roundsTo_significant hUnits
  have hNumber := hRounds.pos (by decide)
  obtain ⟨-, hExponent⟩ := Binary64.significant_spec hLimit (by decide : 6 ≤ 17)
  rw [hText, ← isPositional_significant_iff hUnits]
  generalize Binary64.significant 6 units = d at hRounds hNumber hExponent
  simp only [Decimal.layOut]
  split
  · rename_i hPlace
    obtain ⟨n, hn, hPositional, hSame⟩ := d.exists_numeral_positional 6
    refine ⟨n, ?_, iff_of_true (by rwa [hSame]) hPlace⟩
    rw [← hPositional]
    exact firstMatch_of_match (PixelLiteral.pixelRead?_text hn)
  · rename_i hPlace
    obtain ⟨n, hFirst, hRead⟩ := d.exists_first?_scientific
    refine ⟨n, hFirst, iff_of_false ?_ hPlace⟩
    intro hRounded
    have hSame : (d.leadingExponent.natAbs : Rat) = d.number := hRead ▸ hRounded.unique hRounds
    by_cases hLarge : 6 ≤ d.leadingExponent
    · have hPow := (Decimal.tenZpow_le_number_iff hNumber 6).2 hLarge
      have hCast : (d.leadingExponent.natAbs : Rat) < ((10 ^ 4 : Nat) : Rat) :=
        Rat.natCast_lt_natCast.2 hExponent
      have hLess : ((10 ^ 4 : Nat) : Rat) < 10 ^ (6 : Int) := by decide +kernel
      grind
    · have hPow := (not_congr (Decimal.tenZpow_le_number_iff hNumber (-4))).2 (by omega)
      have hCast : ((1 : Nat) : Rat) ≤ (d.leadingExponent.natAbs : Rat) :=
        Rat.natCast_le_natCast.2 (by omega)
      have hLess : (10 : Rat) ^ (-4 : Int) < ((1 : Nat) : Rat) := by decide +kernel
      grind

theorem first?_pixels_twelveAndAHalf :
    ∃ n, Pixel.first? (pixels (.ofRatio false 25 2)) = some n ∧ RoundsTo 6 (25 / 2) n.number := by
  have hNumber : (Binary64.ofRatio false 25 2).number? = some (25 / 2) := by decide +kernel
  obtain ⟨n, hFirst, hIff⟩ := first?_pixels_iff hNumber (by decide +kernel)
  exact ⟨n, hFirst, hIff.2 (by decide +kernel)⟩

end Design

end StyleScaffold
