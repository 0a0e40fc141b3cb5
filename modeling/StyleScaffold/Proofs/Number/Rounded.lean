import StyleScaffold.Number.Shortest
import StyleScaffold.Proofs.Text.Plain

/-!
# The rounded text of a number

The rounded text is a plain word (`isWord_rounded`) and short (`length_rounded_le`), whatever the number
is. The first is a matter of the layout alone. The second takes two facts about the number:

* `inSteps_lt`: in steps of the last significant digit, the number is below the power of ten with
  as many zeros as there are significant digits. So rounding gives one digit more at most.
* `length_leading_le`: with its units limited, so is the exponent of its leading digit.
-/

namespace StyleScaffold

open Text

namespace Decimal

/-! ## Layouts -/

theorem plain_exponentText (e : Int) : Plain (exponentText e) := by
  have hMinus : Plain ("-" : Text) := by decide
  have hPlus : Plain ("+" : Text) := by decide
  have hDigits := (plain_copies (c := '0') (by decide) (2 - (ofNat e.natAbs).length)).append
    (plain_ofNat e.natAbs)
  unfold exponentText
  dsimp only
  rw [List.append_assoc]
  split
  · exact hMinus.append hDigits
  · exact hPlus.append hDigits

theorem length_exponentText_le {e : Int} (h : e.natAbs < 10 ^ 4) :
    (exponentText e).length ≤ 5 := by
  have hDigits := (length_ofNat_le_iff (by decide : 0 < 4)).2 h
  have hSign : (if e < 0 then ("-" : Text) else "+").length = 1 := by split <;> rfl
  simp only [exponentText, List.length_append, hSign, copies, List.length_replicate]
  omega

theorem plain_positional (d : Decimal) (limit : Int) : Plain (positional ⟨limit, false⟩ d) := by
  have hPoint : Plain ("." : Text) := by decide
  have hZero : Plain ("0." : Text) := by decide
  have hZeros := plain_copies (c := '0') (by decide)
  have hDigits := plain_ofNat d.digits
  simp only [positional, Bool.false_eq_true, if_false, List.append_nil]
  split
  · exact hDigits.append (hZeros _)
  · split
    · exact ((hDigits.of_subset (List.take_subset _ _)).append hPoint).append
        (hDigits.of_subset (List.drop_subset _ _))
    · exact (hZero.append (hZeros _)).append hDigits

theorem length_positional_le {d : Decimal} {limit : Int}
    (hDigits : (ofNat d.digits).length ≤ 7) (hLow : -4 ≤ d.leadingExponent)
    (hHigh : d.leadingExponent < 6) : (positional ⟨limit, false⟩ d).length ≤ 14 := by
  have hPoint : ("." : Text).length = 1 := rfl
  have hZero : ("0." : Text).length = 2 := rfl
  unfold leadingExponent at hLow hHigh
  simp only [positional, Bool.false_eq_true, if_false, List.append_nil]
  split
  · simp only [copies, List.length_append, List.length_replicate]
    omega
  · split
    · simp only [List.length_append, List.length_take, List.length_drop, hPoint]
      omega
    · simp only [copies, List.length_append, List.length_replicate, hZero]
      omega

/-- The digits with a point behind the first of them, if there are more. -/
theorem exists_scientific (d : Decimal) :
    ∃ mantissa : Text, (∀ c ∈ mantissa, c ∈ ofNat d.digits ∨ c = '.') ∧
      mantissa.length ≤ (ofNat d.digits).length + 1 ∧
      scientific d = mantissa ++ ("e" ++ exponentText d.leadingExponent) := by
  unfold scientific
  generalize ofNat d.digits = digits
  match digits with
  | [] => exact ⟨[], by simp, by simp, rfl⟩
  | [c] => exact ⟨[c], by simp, by simp, rfl⟩
  | c :: e :: more => exact ⟨c :: .char '.' :: e :: more, by grind, by simp, by simp⟩

theorem plain_layOut (d : Decimal) (limit : Int) : Plain (d.layOut ⟨limit, false⟩) := by
  have hMark : Plain ("e" : Text) := by decide
  unfold layOut
  split
  · exact plain_positional d limit
  · obtain ⟨mantissa, hMantissa, -, hEq⟩ := exists_scientific d
    have hPlain : Plain mantissa := by
      intro c hc
      rcases hMantissa c hc with hDigit | rfl
      · exact plain_ofNat d.digits c hDigit
      · decide
    rw [hEq]
    exact hPlain.append (hMark.append (plain_exponentText _))

theorem layOut_ne_nil (d : Decimal) (layout : DecimalLayout) : d.layOut layout ≠ [] := by
  have hDigits := ofNat_ne_nil d.digits
  unfold layOut
  split
  · unfold positional
    dsimp only
    split
    · simp [hDigits]
    · split <;> simp [ofString]
  · simp [scientific, ofString]

theorem length_layOut_le {d : Decimal} (hDigits : (ofNat d.digits).length ≤ 7)
    (hExponent : d.leadingExponent.natAbs < 10 ^ 4) : (d.layOut ⟨6, false⟩).length ≤ 14 := by
  have hMark : ("e" : Text).length = 1 := rfl
  unfold layOut
  split
  · rename_i hPlace
    exact length_positional_le hDigits hPlace.1 hPlace.2
  · obtain ⟨mantissa, -, hLength, hEq⟩ := exists_scientific d
    have hBehind := length_exponentText_le hExponent
    rw [hEq, List.length_append, List.length_append, hMark]
    omega

/-! ## Trailing zeros -/

theorem dropTrailingZeros_spec (fuel : Nat) (d : Decimal) :
    (dropTrailingZeros fuel d).digits ≤ d.digits ∧
      d.exponent ≤ (dropTrailingZeros fuel d).exponent ∧
      (dropTrailingZeros fuel d).exponent ≤ d.exponent + fuel := by
  induction fuel generalizing d with
  | zero => exact ⟨Nat.le_refl _, by simp [dropTrailingZeros], by simp [dropTrailingZeros]⟩
  | succ fuel ih =>
    unfold dropTrailingZeros
    split
    · obtain ⟨hDigits, hLow, hHigh⟩ := ih ⟨d.digits / 10, d.exponent + 1⟩
      have hDiv := Nat.div_le_self d.digits 10
      dsimp only at hDigits hLow hHigh
      exact ⟨by omega, by omega, by omega⟩
    · exact ⟨Nat.le_refl _, by omega, by omega⟩

/-- A decimal without its trailing zeros has no more digits, and its leading digit is about where
it was. -/
theorem normal_spec {d : Decimal} {k : Nat} (hk : 0 < k) (hDigits : (ofNat d.digits).length ≤ k) :
    (ofNat d.normal.digits).length ≤ k ∧ d.exponent ≤ d.normal.leadingExponent ∧
      d.normal.leadingExponent < d.exponent + 2 * k := by
  obtain ⟨hLess, hLow, hHigh⟩ := dropTrailingZeros_spec (ofNat d.digits).length d
  have hOwn := (length_ofNat_le_iff hk).1 hDigits
  have hLength : (ofNat d.normal.digits).length ≤ k :=
    (length_ofNat_le_iff hk).2 (Nat.lt_of_le_of_lt hLess hOwn)
  have hPos := List.length_pos_iff.2 (ofNat_ne_nil d.normal.digits)
  refine ⟨hLength, ?_, ?_⟩
  · unfold leadingExponent normal at *
    omega
  · unfold leadingExponent normal at *
    omega

end Decimal

namespace Binary64

/-! ## Significant digits -/

/-- In steps of its last significant digit, a number has as many digits as are significant. -/
theorem inSteps_lt {units one len shift count : Nat} (exponent : Int)
    (hExponent : exponent = (len : Int) - shift - count)
    (h : units * 10 ^ shift < 10 ^ len * one) :
    (inSteps exponent units one).1 < 10 ^ count * (inSteps exponent units one).2 := by
  have hPos : ∀ k, 0 < 10 ^ k := fun k => Nat.pow_pos (by decide)
  unfold inSteps
  split
  · rename_i hSign
    obtain ⟨k, rfl⟩ : ∃ k, len = k + count + shift := ⟨len - count - shift, by omega⟩
    have hStep : exponent.toNat = k := by omega
    rw [hStep]
    refine Nat.lt_of_mul_lt_mul_right (a := 10 ^ shift) ?_
    calc
      units * 10 ^ shift < 10 ^ (k + count + shift) * one := h
      _ = 10 ^ count * (one * 10 ^ k) * 10 ^ shift := by
        rw [Nat.pow_add, Nat.pow_add]
        ac_rfl
  · obtain ⟨k, hk⟩ : ∃ k, count + shift = len + k := ⟨count + shift - len, by omega⟩
    have hStep : (-exponent).toNat = k := by omega
    rw [hStep]
    refine Nat.lt_of_mul_lt_mul_right (a := 10 ^ shift) ?_
    calc
      units * 10 ^ k * 10 ^ shift = units * 10 ^ shift * 10 ^ k := by ac_rfl
      _ < 10 ^ len * one * 10 ^ k := Nat.mul_lt_mul_of_pos_right h (hPos k)
      _ = 10 ^ (count + shift) * one := by
        rw [hk, Nat.pow_add]
        ac_rfl
      _ = 10 ^ count * one * 10 ^ shift := by
        rw [Nat.pow_add]
        ac_rfl

/-- The digits in front of the point, and as many behind it as `leadingExponent` looks at. -/
theorem leadingExponent_spec {units : Nat} (h : units < unitsLimit) :
    ∃ len shift : Nat, shift = 400 ∧ len ≤ 1424 ∧ leadingExponent units + 1 = (len : Int) - shift ∧
      units * 10 ^ shift < 10 ^ len * unitsPerOne := by
  obtain ⟨shift, hShift⟩ : ∃ shift, shift = 400 := ⟨_, rfl⟩
  obtain ⟨a, ha, hUnits⟩ : ∃ a, a = 1024 ∧ unitsLimit ≤ 10 ^ a * unitsPerOne := by
    have hLimit : ∀ a b c : Nat, a + b = c → 2 ^ c ≤ 10 ^ a * 2 ^ b := by
      rintro a b c rfl
      rw [Nat.pow_add]
      exact Nat.mul_le_mul_right _ (Nat.pow_le_pow_left (by decide) a)
    unfold unitsLimit unitsPerOne
    exact ⟨1024, rfl, hLimit 1024 1074 2098 rfl⟩
  have hPos : 0 < (ofNat (units * 10 ^ shift / unitsPerOne)).length :=
    List.length_pos_iff.2 (ofNat_ne_nil _)
  refine ⟨(ofNat (units * 10 ^ shift / unitsPerOne)).length, shift, hShift, ?_, ?_, ?_⟩
  · have hSum : 1424 = a + shift := by omega
    rw [hSum, length_ofNat_le_iff (by omega), Nat.div_lt_iff_lt_mul unitsPerOne_pos, Nat.pow_add,
      Nat.mul_right_comm]
    exact Nat.mul_lt_mul_of_pos_right (Nat.lt_of_lt_of_le h hUnits) (Nat.pow_pos (by decide))
  · rw [leadingExponent, hShift]
    omega
  · rw [← Nat.div_lt_iff_lt_mul unitsPerOne_pos]
    exact (length_ofNat_le_iff hPos).1 (Nat.le_refl _)

/-- Rounding gives one digit more than are significant at most, and a leading digit with a short
exponent. -/
theorem significant_spec {units : Nat} (h : units < unitsLimit) {count : Nat}
    (hCount : count ≤ 17) :
    (ofNat (significant count units).digits).length ≤ count + 1 ∧
      (significant count units).leadingExponent.natAbs < 10 ^ 4 := by
  obtain ⟨len, shift, hShift, hLen, hLead, hUnits⟩ := leadingExponent_spec h
  rw [significant]
  generalize leadingExponent units = lead at hLead
  have hPlace : lead - count + 1 = (len : Int) - shift - count := by omega
  have hSteps := inSteps_lt _ hPlace hUnits
  rw [roundedFrom]
  cases hPair : inSteps (lead - count + 1) units unitsPerOne with
  | mk num den =>
    rw [hPair] at hSteps
    have hRound := roundHalfEven_le num den
    have hDiv : num / den < 10 ^ count := Nat.div_lt_of_lt_mul (Nat.mul_comm _ _ ▸ hSteps)
    have hDigits : (ofNat (roundHalfEven num den)).length ≤ count + 1 := by
      have hTen : 0 < 10 ^ count := Nat.pow_pos (by decide)
      rw [length_ofNat_le_iff (by omega), Nat.pow_succ]
      omega
    obtain ⟨hLength, hLow, hHigh⟩ := Decimal.normal_spec
      (d := ⟨roundHalfEven num den, lead - count + 1⟩) (by omega) hDigits
    dsimp only at hLow hHigh ⊢
    exact ⟨hLength, by omega⟩

/-! ## The text -/

theorem isWord_rounded (x : Binary64) : IsWord x.rounded := by
  have hMinus : Plain ("-" : Text) := by decide
  have hNil : Plain [] := by decide
  cases x with
  | finite negative units h =>
    simp only [rounded, textWith]
    refine ⟨List.append_ne_nil_of_right_ne_nil _ (Decimal.layOut_ne_nil _ _), ?_⟩
    refine Plain.append ?_ (Decimal.plain_layOut _ _)
    split
    · exact hMinus
    · exact hNil
  | infinite negative => cases negative <;> decide
  | nan => decide

theorem length_rounded_le (x : Binary64) : x.rounded.length ≤ 15 := by
  cases x with
  | finite negative units h =>
    have hSign : (if negative then ("-" : Text) else []).length ≤ 1 := by split <;> decide
    have hBody : ((if units = 0 then Decimal.mk 0 0 else significant 6 units).layOut
        ⟨6, false⟩).length ≤ 14 := by
      split
      · decide
      · obtain ⟨hDigits, hExponent⟩ := significant_spec h (by decide : 6 ≤ 17)
        exact Decimal.length_layOut_le hDigits hExponent
    simp only [rounded, textWith, List.length_append]
    omega
  | infinite negative => cases negative <;> decide
  | nan => decide

end Binary64

end StyleScaffold
