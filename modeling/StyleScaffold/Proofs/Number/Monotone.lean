import StyleScaffold.Proofs.Number.Quarter

/-!
# Rounding keeps the order

Of two quotients with one denominator, the smaller one is not rounded to the larger number
(`nearestUnits_le_nearestUnits`). This is plain where both are rounded to one grid. Where the grid of
the larger quotient is wider, a power of two lies between the two rounded numbers.

A whole number below `2^53` is not rounded (`nearestUnits_whole`), so it bounds what is rounded on
its one side, and rounding does not change which whole numbers are at most it
(`nearestUnits_whole_le_iff`).
-/

namespace StyleScaffold

theorem roundHalfEven_le_roundHalfEven {num num' : Nat} (h : num ≤ num') (den : Nat) :
    roundHalfEven num den ≤ roundHalfEven num' den := by
  have hDiv : num / den ≤ num' / den := Nat.div_le_div_right h
  rcases Nat.lt_or_eq_of_le hDiv with hLess | hEq
  · calc
      roundHalfEven num den ≤ num / den + 1 := roundHalfEven_le num den
      _ ≤ num' / den := hLess
      _ ≤ roundHalfEven num' den := div_le_roundHalfEven num' den
  · -- with one whole part, the remainders are in order
    have hNum : den * (num / den) + num % den = num := Nat.div_add_mod num den
    have hNum' : den * (num' / den) + num' % den = num' := Nat.div_add_mod num' den
    rw [← hEq] at hNum'
    have hMod : num % den ≤ num' % den := by omega
    unfold roundHalfEven
    simp only [← hEq]
    by_cases hBelow : 2 * (num' % den) < den
    · exact Nat.le_of_eq (by rw [if_pos hBelow, if_pos (by omega)])
    · rw [if_neg hBelow]
      split <;> grind

namespace Binary64

/-- What is rounded to a finer grid does not go beyond the power of two at which a wider one
begins. -/
theorem gridStep_mul_le {units units' : Nat} (h : gridStep units < gridStep units') :
    52 ≤ units'.log2 ∧ gridStep units * 2 ^ 53 ≤ 2 ^ units'.log2 := by
  have hExponent : units.log2 - 52 < units'.log2 - 52 := (Nat.pow_lt_pow_iff_right (by decide)).1 h
  refine ⟨by omega, ?_⟩
  rw [gridStep, ← Nat.pow_add]
  exact Nat.pow_le_pow_right (by decide) (by omega)

theorem gridStep_le_gridStep {units units' : Nat} (h : units ≤ units') :
    gridStep units ≤ gridStep units' := by
  have hLog : units.log2 ≤ units'.log2 := by
    by_cases hZero : units = 0
    · simp [hZero]
    · exact (Nat.le_log2 (by omega)).2 (Nat.le_trans (Nat.log2_self_le hZero) h)
  exact Nat.pow_le_pow_right (by decide) (by omega)

theorem nearestUnits_le_nearestUnits {num num' : Nat} (h : num ≤ num') (den : Nat) :
    nearestUnits num den ≤ nearestUnits num' den := by
  have hDiv : num / den ≤ num' / den := Nat.div_le_div_right h
  rcases Nat.lt_or_eq_of_le (gridStep_le_gridStep hDiv) with hWider | hSame
  · obtain ⟨hLog, hPower⟩ := gridStep_mul_le hWider
    calc
      nearestUnits num den ≤ gridStep (num / den) * 2 ^ 53 := nearestUnits_le num den
      _ ≤ 2 ^ (num' / den).log2 := hPower
      _ ≤ nearestUnits num' den := two_pow_le_nearestUnits hLog
  · rw [nearestUnits_eq, nearestUnits_eq, ← hSame]
    exact Nat.mul_le_mul_left _ (roundHalfEven_le_roundHalfEven h _)

/-- A whole number of at most 53 bits is on the grid. -/
theorem gridStep_dvd_whole {n : Nat} (h : n < 2 ^ 53) :
    gridStep (n * unitsPerOne) ∣ n * unitsPerOne := by
  by_cases hZero : n * unitsPerOne = 0
  · rw [hZero]
    exact Nat.dvd_zero _
  obtain ⟨e, hOne⟩ : ∃ e, unitsPerOne = 2 ^ e := ⟨1074, by unfold unitsPerOne; rfl⟩
  rw [hOne] at hZero ⊢
  have hLog : (n * 2 ^ e).log2 < 53 + e := by
    rw [Nat.log2_lt hZero, Nat.pow_add]
    exact Nat.mul_lt_mul_of_pos_right h (Nat.two_pow_pos e)
  exact Nat.dvd_trans (Nat.pow_dvd_pow 2 (by omega)) (Nat.dvd_mul_left _ n)

/-- A quotient that is a whole number of at most 53 bits is not rounded. -/
theorem nearestUnits_whole {n den : Nat} (h : n < 2 ^ 53) (hDen : 0 < den) :
    nearestUnits (n * den * unitsPerOne) den = n * unitsPerOne := by
  have hNum : n * den * unitsPerOne = n * unitsPerOne * den := Nat.mul_right_comm n den unitsPerOne
  have hDiv : n * den * unitsPerOne / den = n * unitsPerOne := by
    rw [hNum, Nat.mul_div_cancel _ hDen]
  have hGrid : den * gridStep (n * den * unitsPerOne / den) ∣ n * den * unitsPerOne := by
    rw [hDiv, hNum, Nat.mul_comm den]
    exact Nat.mul_dvd_mul_right (gridStep_dvd_whole h) den
  have hExact := nearestUnits_mul_of_dvd hDen hGrid
  rw [hNum] at hExact ⊢
  exact Nat.eq_of_mul_eq_mul_right hDen hExact

/-- A whole number, however large, is rounded to at most a small one exactly when it is at most this
one: the next one is not rounded either. -/
theorem nearestUnits_whole_le_iff (n : Nat) {t den : Nat} (h : t + 1 < 2 ^ 53) (hDen : 0 < den) :
    nearestUnits (n * den * unitsPerOne) den ≤ t * unitsPerOne ↔ n ≤ t := by
  have hMono : ∀ {j k : Nat}, j ≤ k →
      nearestUnits (j * den * unitsPerOne) den ≤ nearestUnits (k * den * unitsPerOne) den :=
    fun hjk => nearestUnits_le_nearestUnits
      (Nat.mul_le_mul_right _ (Nat.mul_le_mul_right _ hjk)) den
  constructor
  · intro hUnits
    rw [← Nat.not_lt]
    intro hLess
    have hNext := hMono (Nat.succ_le_of_lt hLess)
    rw [nearestUnits_whole h hDen, Nat.succ_mul] at hNext
    have := unitsPerOne_pos
    omega
  · intro hLe
    calc
      nearestUnits (n * den * unitsPerOne) den ≤ nearestUnits (t * den * unitsPerOne) den :=
        hMono hLe
      _ = t * unitsPerOne := nearestUnits_whole (by omega) hDen

end Binary64

end StyleScaffold
