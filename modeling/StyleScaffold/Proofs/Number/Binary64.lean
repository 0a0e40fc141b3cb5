import StyleScaffold.Number.Binary64

/-!
# Where rounding leaves the range

A quotient rounds to an infinite number exactly when it reaches the middle between the largest
finite number and the first power of two beyond the range (`ofUnits_cases`). The middle itself
goes up, because the power of two is the even neighbour. For numbers given as they are, and not in
units, the bound is `2^1024 - 2^970` (`ofRatio_cases`).
-/

namespace StyleScaffold

/-- A quotient rounds up to an even number from half a unit below it. -/
theorem le_roundHalfEven_iff (num : Nat) {den n : Nat} (hDen : 0 < den) (hEven : n % 2 = 0)
    (hPos : 0 < n) : n ≤ roundHalfEven num den ↔ (2 * n - 1) * den ≤ 2 * num := by
  have hNum : den * (num / den) + num % den = num := Nat.div_add_mod num den
  have hMod : num % den < den := Nat.mod_lt num hDen
  have hLow := div_le_roundHalfEven num den
  have hHigh := roundHalfEven_le num den
  rcases Nat.lt_trichotomy (num / den + 1) n with hLess | hEq | hMore
  · have hBound : den * (num / den + 1) ≤ den * (n - 1) := Nat.mul_le_mul_left den (by omega)
    have hTwice : (2 * n - 1) * den = 2 * (den * (n - 1)) + den := by
      rw [show 2 * n - 1 = 2 * (n - 1) + 1 by omega, Nat.add_mul, Nat.one_mul, Nat.mul_assoc,
        Nat.mul_comm (n - 1)]
    rw [Nat.mul_add, Nat.mul_one] at hBound
    constructor <;> intro h <;> omega
  · have hTwice : (2 * n - 1) * den = 2 * (den * (num / den)) + den := by
      rw [← hEq, show 2 * (num / den + 1) - 1 = 2 * (num / den) + 1 by omega, Nat.add_mul,
        Nat.one_mul, Nat.mul_assoc, Nat.mul_comm (num / den)]
    have hUp : n ≤ roundHalfEven num den ↔ den ≤ 2 * (num % den) := by
      unfold roundHalfEven
      dsimp only
      split
      · constructor <;> intro h <;> omega
      · split
        · constructor <;> intro h <;> omega
        · rw [if_neg (by omega)]
          constructor <;> intro h <;> omega
    rw [hUp, hTwice]
    constructor <;> intro h <;> omega
  · have hBound : den * n ≤ den * (num / den) := Nat.mul_le_mul_left den (by omega)
    have hTwice : (2 * n - 1) * den + den = 2 * (den * n) := by
      rw [← Nat.succ_mul, show Nat.succ (2 * n - 1) = 2 * n by omega, Nat.mul_assoc,
        Nat.mul_comm n]
    constructor <;> intro h <;> omega

namespace Binary64

/-! ## Grid points -/

theorem gridStep_pos (units : Nat) : 0 < gridStep units := Nat.two_pow_pos _

/-- Above the first steps, the grid divides the range of a power of two into `2^52` steps. -/
theorem gridStep_mul {units : Nat} (h : 52 ≤ units.log2) :
    2 ^ 52 * gridStep units = 2 ^ units.log2 := by
  rw [gridStep, ← Nat.pow_add]
  congr 1
  omega

theorem div_gridStep_lt (units : Nat) : units / gridStep units < 2 ^ 53 := by
  have hUnits : units < 2 ^ (units.log2 + 1) := Nat.lt_log2_self
  rw [Nat.div_lt_iff_lt_mul (gridStep_pos units)]
  refine Nat.lt_of_lt_of_le hUnits ?_
  rw [gridStep, ← Nat.pow_add]
  exact Nat.pow_le_pow_right (by decide) (by omega)

theorem nearestUnits_eq (num den : Nat) :
    nearestUnits num den =
      gridStep (num / den) * roundHalfEven num (den * gridStep (num / den)) := rfl

/-- Rounding goes to the next power of two at most. -/
theorem nearestUnits_le (num den : Nat) :
    nearestUnits num den ≤ gridStep (num / den) * 2 ^ 53 := by
  have hRound := roundHalfEven_le num (den * gridStep (num / den))
  have hLess := div_gridStep_lt (num / den)
  rw [Nat.div_div_eq_div_mul] at hLess
  exact Nat.mul_le_mul_left _ (by omega)

theorem two_pow_le_nearestUnits {num den : Nat} (h : 52 ≤ (num / den).log2) :
    2 ^ (num / den).log2 ≤ nearestUnits num den := by
  have hNe : num / den ≠ 0 := by
    intro hZero
    rw [hZero] at h
    simp at h
  have hRound := div_le_roundHalfEven num (den * gridStep (num / den))
  rw [← Nat.div_div_eq_div_mul] at hRound
  have hUnits : 2 ^ 52 ≤ num / den / gridStep (num / den) := by
    rw [Nat.le_div_iff_mul_le (gridStep_pos _), gridStep_mul h]
    exact Nat.log2_self_le hNe
  calc
    2 ^ (num / den).log2 = gridStep (num / den) * 2 ^ 52 := by rw [← gridStep_mul h, Nat.mul_comm]
    _ ≤ nearestUnits num den := Nat.mul_le_mul_left _ (Nat.le_trans hUnits hRound)

/-- The nearest grid point is a large power of two or more from a quarter of a grid step below
that power on, which is half a step of the grid in front of it. -/
theorem two_pow_le_nearestUnits_iff {num den : Nat} (hDen : 0 < den) (m : Nat) :
    2 ^ (m + 54) ≤ nearestUnits num den ↔ (2 ^ 54 - 1) * 2 ^ m * den ≤ num := by
  have hLower : 2 ^ (m + 53) ≤ (2 ^ 54 - 1) * 2 ^ m := by
    rw [Nat.pow_add, Nat.mul_comm]
    exact Nat.mul_le_mul_right _ (by decide)
  have hUpper : (2 ^ 54 - 1) * 2 ^ m ≤ 2 ^ (m + 54) := by
    rw [Nat.pow_add, Nat.mul_comm (2 ^ m)]
    exact Nat.mul_le_mul_right _ (by decide)
  by_cases hSmall : num / den < 2 ^ (m + 53)
  · have hLog : (num / den).log2 ≤ m + 52 := by
      by_cases hZero : num / den = 0
      · simp [hZero]
      · have := (Nat.log2_lt hZero).2 hSmall
        omega
    have hStep : gridStep (num / den) * 2 ^ 53 ≤ 2 ^ (m + 53) := by
      rw [gridStep, ← Nat.pow_add]
      exact Nat.pow_le_pow_right (by decide) (by omega)
    have hLess : 2 ^ (m + 53) < 2 ^ (m + 54) := Nat.pow_lt_pow_right (by decide) (by omega)
    refine iff_of_false (Nat.not_le_of_lt ?_) (Nat.not_le_of_lt ?_)
    · exact Nat.lt_of_le_of_lt (Nat.le_trans (nearestUnits_le num den) hStep) hLess
    · have hNum := (Nat.div_lt_iff_lt_mul hDen).1 hSmall
      exact Nat.lt_of_lt_of_le hNum (Nat.mul_le_mul_right den hLower)
  · have hNe : num / den ≠ 0 := by
      have := Nat.two_pow_pos (m + 53)
      omega
    have hLog : m + 53 ≤ (num / den).log2 := (Nat.le_log2 hNe).2 (Nat.le_of_not_lt hSmall)
    by_cases hLarge : 2 ^ (m + 54) ≤ num / den
    · refine iff_of_true ?_ ?_
      · have hPow := Nat.pow_le_pow_right Nat.two_pos ((Nat.le_log2 hNe).2 hLarge)
        exact Nat.le_trans hPow (two_pow_le_nearestUnits (by omega))
      · have hNum := (Nat.le_div_iff_mul_le hDen).1 hLarge
        exact Nat.le_trans (Nat.mul_le_mul_right den hUpper) hNum
    · -- the quotient is in front of the power, and a grid step is `2 ^ (m + 1)`
      have hEq : (num / den).log2 = m + 53 := by
        have := (Nat.log2_lt hNe).2 (Nat.lt_of_not_le hLarge)
        omega
      have hStep : gridStep (num / den) = 2 * 2 ^ m := by
        rw [gridStep, hEq, ← Nat.pow_succ']
        congr 1
      have hLimit : 2 ^ (m + 54) = gridStep (num / den) * 2 ^ 53 := by
        rw [hStep, ← Nat.pow_succ', ← Nat.pow_add]
      have hPos := gridStep_pos (num / den)
      have hUp := le_roundHalfEven_iff num (Nat.mul_pos hDen hPos)
        (show 2 ^ 53 % 2 = 0 by decide) (by decide)
      have hTwice : (2 * 2 ^ 53 - 1) * (den * gridStep (num / den)) =
          2 * ((2 ^ 54 - 1) * 2 ^ m * den) := by
        rw [hStep, show 2 * 2 ^ 53 - 1 = 2 ^ 54 - 1 by decide]
        generalize 2 ^ 54 - 1 = middle
        ac_rfl
      rw [hTwice, Nat.mul_le_mul_left_iff Nat.two_pos] at hUp
      rw [← hUp, hLimit, nearestUnits_eq]
      exact Nat.mul_le_mul_left_iff hPos

theorem natAbs_signed (negative : Bool) (n : Nat) : (signed negative n).natAbs = n := by
  cases negative
  · exact Int.natAbs_natCast n
  · exact (Int.natAbs_neg _).trans (Int.natAbs_natCast n)

/-! ## Infinite numbers -/

/-- Half way between the largest finite number and `2^1024`. -/
@[irreducible] def overflowBound : Nat := 2 ^ 1024 - 2 ^ 970

theorem overflowBound_mul_unitsPerOne :
    overflowBound * unitsPerOne = (2 ^ 54 - 1) * 2 ^ 2044 := by
  have hSub : ∀ a b c d e : Nat, a + b = d → b + c = e →
      (2 ^ d - 2 ^ b) * 2 ^ c = (2 ^ a - 1) * 2 ^ e := by
    rintro a b c d e rfl rfl
    rw [Nat.pow_add 2 a, Nat.pow_add 2 b, ← Nat.mul_assoc, Nat.sub_mul _ 1, Nat.one_mul]
  unfold overflowBound unitsPerOne
  exact hSub 54 970 1074 1024 2044 rfl rfl

theorem unitsLimit_le_nearestUnits_iff (num : Nat) {den : Nat} (hDen : 0 < den) :
    unitsLimit ≤ nearestUnits num den ↔ overflowBound * unitsPerOne * den ≤ num := by
  have hPow : ∀ m k : Nat, m + 54 = k →
      (2 ^ k ≤ nearestUnits num den ↔ (2 ^ 54 - 1) * 2 ^ m * den ≤ num) := by
    rintro m k rfl
    exact two_pow_le_nearestUnits_iff hDen m
  rw [overflowBound_mul_unitsPerOne]
  unfold unitsLimit
  exact hPow 2044 2098 rfl

theorem unitsLimit_le : unitsLimit ≤ overflowBound * unitsPerOne * 2 := by
  have hDouble : ∀ m k : Nat, m + 54 = k → 2 ^ k ≤ (2 ^ 54 - 1) * 2 ^ m * 2 := by
    rintro m k rfl
    rw [Nat.pow_add, Nat.mul_comm (2 ^ m), Nat.mul_right_comm]
    exact Nat.mul_le_mul_right _ (by decide)
  rw [overflowBound_mul_unitsPerOne]
  unfold unitsLimit
  exact hDouble 2044 2098 rfl

/-- A quotient rounds to a finite number below the bound, and to an infinite one from there on. -/
theorem ofUnits_cases (negative : Bool) (num : Nat) {den : Nat} (hDen : 0 < den) :
    overflowBound * unitsPerOne * den ≤ num ∧ ofUnits negative num den = .infinite negative ∨
      num < overflowBound * unitsPerOne * den ∧
        ∃ units h, ofUnits negative num den = .finite negative units h := by
  have hLimit := unitsLimit_le_nearestUnits_iff num hDen
  unfold ofUnits
  dsimp only
  split
  · rename_i hLess
    exact Or.inr ⟨by omega, _, hLess, rfl⟩
  · rename_i hMore
    exact Or.inl ⟨by omega, rfl⟩

theorem ofRatio_cases (negative : Bool) {num den : Nat} (hDen : 0 < den) :
    overflowBound * den ≤ num ∧ ofRatio negative num den = .infinite negative ∨
      num < overflowBound * den ∧
        ∃ units h, ofRatio negative num den = .finite negative units h := by
  have hCases := ofUnits_cases negative (num * unitsPerOne) hDen
  rwa [Nat.mul_right_comm, Nat.mul_le_mul_right_iff unitsPerOne_pos,
    Nat.mul_lt_mul_right unitsPerOne_pos] at hCases

/-- What is divided does not leave the range. -/
theorem dividedBy_finite (negative : Bool) {units : Nat} (h : units < unitsLimit) {k : Nat}
    (hk : 2 ≤ k) :
    ∃ part hPart, (finite negative units h).dividedBy k = .finite negative part hPart := by
  have hTwice := Nat.mul_le_mul_left (overflowBound * unitsPerOne) hk
  have hLimit := unitsLimit_le
  have hPos : 0 < k := by omega
  rcases ofUnits_cases negative units hPos with ⟨hMore, -⟩ | ⟨-, hFinite⟩
  · omega
  · exact hFinite

end Binary64

end StyleScaffold
