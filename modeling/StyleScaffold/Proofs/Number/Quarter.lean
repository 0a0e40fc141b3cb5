import StyleScaffold.Proofs.Number.Binary64

/-!
# Quarters of floating-point numbers

A number is a point of the grid, and the quarter of a grid point is one again unless it is very
small. So a quarter is rounded only below `2^54` units, where it is far from every whole number but
zero, and a whole quarter is exact or zero.

* `gridStep_dvd_nearestUnits`: rounding gives points of the grid.
* `nearestUnits_mul_of_dvd`: a quotient on the grid is not rounded.
* `whole?_quarter`: which numbers have a whole quarter.
* `dist_nearestUnits_le`: rounding moves a number by half a grid step at most.
* `eq_mul_of_nearestUnits_eq`: so a quotient of short numbers that is rounded to a whole number is
  that number.
-/

namespace StyleScaffold

theorem dist_roundHalfEven_le (num : Nat) {den : Nat} (hDen : 0 < den) :
    2 * (num - roundHalfEven num den * den) ≤ den ∧
      2 * (roundHalfEven num den * den - num) ≤ den := by
  have hNum : num / den * den + num % den = num := Nat.div_add_mod' num den
  have hMod : num % den < den := Nat.mod_lt num hDen
  have hNext : (num / den + 1) * den = num / den * den + den := Nat.succ_mul _ _
  unfold roundHalfEven
  dsimp only
  split
  · omega
  · split
    · rw [hNext]
      omega
    · split
      · omega
      · rw [hNext]
        omega

namespace Binary64

/-! ## Points of the grid -/

theorem gridStep_dvd_nearestUnits (num den : Nat) :
    gridStep (nearestUnits num den) ∣ nearestUnits num den := by
  have hLess := nearestUnits_le num den
  rw [nearestUnits_eq] at hLess ⊢
  generalize roundHalfEven num (den * gridStep (num / den)) = r at hLess ⊢
  obtain ⟨e, hStep⟩ : ∃ e, gridStep (num / den) = 2 ^ e := ⟨_, rfl⟩
  rw [hStep] at hLess ⊢
  by_cases hZero : 2 ^ e * r = 0
  · rw [hZero]
    exact Nat.dvd_zero _
  rw [← Nat.pow_add] at hLess
  rcases Nat.lt_or_eq_of_le hLess with hBelow | hEq
  · have hLog := (Nat.log2_lt hZero).2 hBelow
    exact Nat.dvd_trans (Nat.pow_dvd_pow 2 (by omega)) (Nat.dvd_mul_right _ _)
  · rw [hEq, gridStep, Nat.log2_two_pow]
    exact Nat.pow_dvd_pow 2 (by omega)

theorem nearestUnits_mul_of_dvd {num den : Nat} (hDen : 0 < den)
    (h : den * gridStep (num / den) ∣ num) : nearestUnits num den * den = num := by
  obtain ⟨m, hm⟩ := h
  have hRound : roundHalfEven num (den * gridStep (num / den)) = m := by
    conv => lhs; arg 1; rw [hm, Nat.mul_comm]
    exact roundHalfEven_mul_self m (Nat.mul_pos hDen (gridStep_pos _))
  calc
    nearestUnits num den * den = gridStep (num / den) * m * den := by rw [nearestUnits_eq, hRound]
    _ = den * gridStep (num / den) * m := by ac_rfl
    _ = num := hm.symm

/-! ## Quarters -/

theorem gridStep_quarter {units : Nat} (h : 2 ^ 54 ≤ units) :
    gridStep units = 4 * gridStep (units / 4) := by
  have hLog : 54 ≤ units.log2 := (Nat.le_log2 (by omega)).2 h
  have hQuarter : (units / 4).log2 = units.log2 - 2 := by
    have hHalf : ∀ n, 2 ≤ n → n.log2 = (n / 2).log2 + 1 := by
      intro n hn
      rw [Nat.log2_def, if_pos hn]
    have hFirst := hHalf units (by omega)
    have hSecond := hHalf (units / 2) (by omega)
    rw [Nat.div_div_eq_div_mul, show 2 * 2 = 4 from rfl] at hSecond
    omega
  rw [gridStep, gridStep, hQuarter, show 4 = 2 ^ 2 from rfl, ← Nat.pow_add]
  congr 1
  omega

/-- The quarter of a grid point is not rounded. -/
theorem nearestUnits_quarter {units : Nat} (h : 2 ^ 54 ≤ units) (hGrid : gridStep units ∣ units) :
    nearestUnits units 4 * 4 = units := by
  rw [gridStep_quarter h] at hGrid
  exact nearestUnits_mul_of_dvd (by decide) hGrid

/-- Below, quarters are rounded to whole units. -/
theorem nearestUnits_quarter_of_lt {units : Nat} (h : units < 2 ^ 54) :
    nearestUnits units 4 ≤ 2 ^ 52 ∧ (nearestUnits units 4 = 0 ↔ units ≤ 2) := by
  have hStep : gridStep (units / 4) = 1 := by
    have hLog : (units / 4).log2 ≤ 52 := by
      by_cases hZero : units / 4 = 0
      · simp [hZero]
      · have := (Nat.log2_lt hZero).2 (show units / 4 < 2 ^ 53 by omega)
        omega
    rw [gridStep, Nat.sub_eq_zero_of_le hLog]
  rw [nearestUnits_eq, hStep, Nat.one_mul]
  unfold roundHalfEven
  dsimp only
  split
  · constructor <;> omega
  · split
    · constructor <;> omega
    · split <;> constructor <;> omega

theorem two_pow_le_unitsPerOne {e : Nat} (h : e ≤ 1074) : 2 ^ e ≤ unitsPerOne := by
  have hPow : ∀ a b : Nat, a ≤ b → 2 ^ a ≤ 2 ^ b := fun _ _ => Nat.pow_le_pow_right (by decide)
  unfold unitsPerOne
  exact hPow e 1074 h

/-- The two smallest positive numbers have the quarter zero. Any other number with a whole quarter
is four times that. -/
theorem whole?_quarter (negative : Bool) {units : Nat} (h : units < unitsLimit)
    (hGrid : gridStep units ∣ units) :
    ((finite negative units h).dividedBy 4).whole? =
      if units ≤ 2 ∨ 4 * unitsPerOne ∣ units then
        some (signed negative (units / (4 * unitsPerOne)))
      else none := by
  have hOne : 2 ^ 55 ≤ unitsPerOne := two_pow_le_unitsPerOne (by decide)
  have hWhole : ((finite negative units h).dividedBy 4).whole? =
      if nearestUnits units 4 % unitsPerOne = 0 then
        some (signed negative (nearestUnits units 4 / unitsPerOne))
      else none := by
    have hLess : nearestUnits units 4 < unitsLimit := by
      obtain ⟨part, hPart, hEq⟩ := dividedBy_finite negative h (k := 4) (by decide)
      simp only [dividedBy, ofUnits] at hEq
      split at hEq
      · assumption
      · cases hEq
    rw [dividedBy, ofUnits, dif_pos hLess, whole?]
  rw [hWhole]
  by_cases hLarge : 2 ^ 54 ≤ units
  · have hExact := nearestUnits_quarter hLarge hGrid
    have hDvd : nearestUnits units 4 % unitsPerOne = 0 ↔ 4 * unitsPerOne ∣ units := by
      conv => rhs; rw [← hExact, Nat.mul_comm 4, Nat.mul_dvd_mul_iff_right (by decide)]
      exact Nat.dvd_iff_mod_eq_zero.symm
    have hDiv : nearestUnits units 4 / unitsPerOne = units / (4 * unitsPerOne) := by
      rw [← Nat.div_div_eq_div_mul]
      congr 1
      omega
    have hMore : ¬ units ≤ 2 := by omega
    simp only [hDvd, hDiv, hMore, false_or]
  · obtain ⟨hSmall, hZero⟩ := nearestUnits_quarter_of_lt (Nat.lt_of_not_le hLarge)
    have hMod : nearestUnits units 4 % unitsPerOne = nearestUnits units 4 :=
      Nat.mod_eq_of_lt (by omega)
    have hNone : nearestUnits units 4 / unitsPerOne = units / (4 * unitsPerOne) := by
      rw [Nat.div_eq_of_lt (by omega), Nat.div_eq_of_lt (by omega)]
    have hStep : nearestUnits units 4 = 0 ↔ units ≤ 2 ∨ 4 * unitsPerOne ∣ units := by
      rw [hZero]
      refine ⟨Or.inl, ?_⟩
      rintro (hSmall | hDvd)
      · exact hSmall
      · rw [Nat.eq_zero_of_dvd_of_lt hDvd (by omega)]
        decide
    simp only [hMod, hStep, hNone]

theorem units_of_ofUnits {negative s : Bool} {num den units : Nat} {h : units < unitsLimit}
    (hEq : ofUnits negative num den = .finite s units h) : units = nearestUnits num den := by
  unfold ofUnits at hEq
  dsimp only at hEq
  split at hEq
  · cases hEq
    rfl
  · cases hEq

theorem units_of_ofRatio {negative s : Bool} {num den units : Nat} {h : units < unitsLimit}
    (hEq : ofRatio negative num den = .finite s units h) :
    units = nearestUnits (num * unitsPerOne) den := units_of_ofUnits hEq

theorem gridStep_dvd_of_ofRatio {negative s : Bool} {num den units : Nat} {h : units < unitsLimit}
    (hEq : ofRatio negative num den = .finite s units h) : gridStep units ∣ units := by
  rw [units_of_ofRatio hEq]
  exact gridStep_dvd_nearestUnits _ den

/-! ## Short quotients -/

/-- Rounding moves a quotient by half a grid step at most. -/
theorem dist_nearestUnits_le (num : Nat) {den : Nat} (hDen : 0 < den) :
    2 * (num - nearestUnits num den * den) ≤ den * gridStep (num / den) ∧
      2 * (nearestUnits num den * den - num) ≤ den * gridStep (num / den) := by
  have hRound := dist_roundHalfEven_le num (Nat.mul_pos hDen (gridStep_pos (num / den)))
  have hUnits : nearestUnits num den * den =
      roundHalfEven num (den * gridStep (num / den)) * (den * gridStep (num / den)) := by
    rw [nearestUnits_eq]
    ac_rfl
  rwa [hUnits]

variable {num den : Nat}

/-- The units of a quotient of short numbers. -/
theorem two_pow_le_div (hNum : 0 < num) (hDen : 0 < den) (hShort : den ≤ 2 ^ 50) :
    2 ^ 52 ≤ num * unitsPerOne / den := by
  rw [Nat.le_div_iff_mul_le hDen]
  calc
    2 ^ 52 * den ≤ 2 ^ 52 * 2 ^ 50 := Nat.mul_le_mul_left _ hShort
    _ = 2 ^ 102 := by rw [← Nat.pow_add]
    _ ≤ unitsPerOne := two_pow_le_unitsPerOne (by decide)
    _ ≤ num * unitsPerOne := Nat.le_mul_of_pos_left _ hNum

theorem two_pow_le_nearestUnits_of_short (hNum : 0 < num) (hDen : 0 < den)
    (hShort : den ≤ 2 ^ 50) : 2 ^ 52 ≤ nearestUnits (num * unitsPerOne) den := by
  have hUnits := two_pow_le_div hNum hDen hShort
  have hLog : 52 ≤ (num * unitsPerOne / den).log2 := (Nat.le_log2 (by omega)).2 hUnits
  exact Nat.le_trans (Nat.pow_le_pow_right (by decide) hLog) (two_pow_le_nearestUnits hLog)

/-- A quotient of short numbers is rounded to a whole number only if it is that number. -/
theorem eq_mul_of_nearestUnits_eq {k : Nat} (hNum : 0 < num) (hShortNum : num < 2 ^ 50)
    (hDen : 0 < den) (hShortDen : den ≤ 2 ^ 50)
    (h : nearestUnits (num * unitsPerOne) den = k * unitsPerOne) : num = k * den := by
  have hUnits := two_pow_le_div hNum hDen hShortDen
  have hLog : 52 ≤ (num * unitsPerOne / den).log2 := (Nat.le_log2 (by omega)).2 hUnits
  have hStep : 2 ^ 52 * (den * gridStep (num * unitsPerOne / den)) < 2 ^ 50 * unitsPerOne :=
    calc
      2 ^ 52 * (den * gridStep (num * unitsPerOne / den))
          = den * (2 ^ 52 * gridStep (num * unitsPerOne / den)) := by ac_rfl
      _ ≤ den * (num * unitsPerOne / den) := by
        rw [gridStep_mul hLog]
        exact Nat.mul_le_mul_left _ (Nat.log2_self_le (by omega))
      _ ≤ num * unitsPerOne := Nat.mul_div_le _ _
      _ < 2 ^ 50 * unitsPerOne := Nat.mul_lt_mul_of_pos_right hShortNum unitsPerOne_pos
  obtain ⟨hBelow, hAbove⟩ := dist_nearestUnits_le (num * unitsPerOne) hDen
  have hWhole : k * unitsPerOne * den = k * den * unitsPerOne := by ac_rfl
  rw [h, hWhole, ← Nat.sub_mul] at hBelow hAbove
  have hNone : ∀ n, 2 * (n * unitsPerOne) ≤ den * gridStep (num * unitsPerOne / den) → n = 0 := by
    intro n hn
    rcases Nat.eq_zero_or_pos n with hZero | hPos
    · exact hZero
    · have := Nat.le_mul_of_pos_left unitsPerOne hPos
      omega
  have := hNone _ hBelow
  have := hNone _ hAbove
  omega

end Binary64

end StyleScaffold
