import StyleScaffold.Number.Shortest
import StyleScaffold.Proofs.Number.ExactNumeral
import StyleScaffold.Proofs.Number.Quarter

/-!
# Significant digits

To round a positive number to some significant digits, move its point behind as many digits and take
the nearest whole number, an even one where two are as near (`RoundsTo`). The rounded number is
unique, and it reaches a power of ten as soon as the number is half a step of the last digit below
it.

* `roundsTo_significant`: the decimal that is written is the rounded number.
* `le_leadingExponent_significant_iff`: from which numbers on its leading digit is at some place.
-/

namespace StyleScaffold

open Text

/-! ## Powers of ten -/

theorem tenZpow_pos (e : Int) : (0 : Rat) < 10 ^ e := Rat.zpow_pos (by decide)

theorem tenZpow_add (d e : Int) : (10 : Rat) ^ (d + e) = 10 ^ d * 10 ^ e :=
  Rat.zpow_add (by decide) d e

theorem tenZpow_natCast (k : Nat) : (10 : Rat) ^ (k : Int) = ((10 ^ k : Nat) : Rat) := by
  rw [Rat.zpow_natCast, Rat.natCast_pow, Rat.natCast_ofNat]

/-- The next power is ten times as large. -/
theorem tenZpow_le_of_lt {d e : Int} (h : d < e) : 10 * (10 : Rat) ^ d ≤ 10 ^ e := by
  obtain ⟨k, rfl⟩ : ∃ k : Nat, e = d + ((k + 1 : Nat) : Int) := ⟨(e - d - 1).toNat, by omega⟩
  have hTen : (10 : Rat) ≤ 10 ^ ((k + 1 : Nat) : Int) := by
    rw [tenZpow_natCast, Nat.pow_succ, Rat.natCast_mul]
    have hOne : ((1 : Nat) : Rat) ≤ ((10 ^ k : Nat) : Rat) :=
      Rat.natCast_le_natCast.2 (Nat.pow_pos (by decide))
    grind
  rw [tenZpow_add, Rat.mul_comm]
  exact Rat.mul_le_mul_of_nonneg_left hTen (Rat.le_of_lt (tenZpow_pos d))

theorem tenZpow_le {d e : Int} (h : d ≤ e) : (10 : Rat) ^ d ≤ 10 ^ e := by
  rcases Int.lt_or_eq_of_le h with hLess | rfl
  · have hStep := tenZpow_le_of_lt hLess
    have hPos := tenZpow_pos d
    grind
  · exact Rat.le_refl

theorem mul_le_mul_right_iff {a b c : Rat} (hc : 0 < c) : a * c ≤ b * c ↔ a ≤ b :=
  ⟨fun h => Rat.le_of_mul_le_mul_right h hc,
    fun h => Rat.mul_le_mul_of_nonneg_right h (Rat.le_of_lt hc)⟩

theorem eq_of_mul_eq_mul_right {a b c : Rat} (hc : 0 < c) (h : a * c = b * c) : a = b :=
  Rat.le_antisymm ((mul_le_mul_right_iff hc).1 (h ▸ Rat.le_refl))
    ((mul_le_mul_right_iff hc).1 (h ▸ Rat.le_refl))

theorem mul_mul_mul_mul_reverse (a b c d : Rat) : a * b * (c * d) = a * d * c * b := by grind

/-! ## Nearest whole numbers -/

/-- The whole number is a nearest one to the number, and it is even if another one is as near. -/
structure IsNearest (y : Rat) (n : Nat) : Prop where
  below : 2 * (y - n) ≤ 1
  above : 2 * (n - y) ≤ 1
  even : 2 * (y - n) = 1 ∨ 2 * (n - y) = 1 → n % 2 = 0

theorem IsNearest.unique {y : Rat} {n k : Nat} (hn : IsNearest y n) (hk : IsNearest y k) :
    n = k := by
  have hNot : ∀ {n k}, IsNearest y n → IsNearest y k → ¬ n < k := by
    intro n k hn hk hLess
    have hStep : ((n + 1 : Nat) : Rat) ≤ k := Rat.natCast_le_natCast.2 hLess
    rw [Rat.natCast_add] at hStep
    have hBelow := hn.below
    have hAbove := hk.above
    have hFirst := hn.even (Or.inl (by grind))
    have hSecond := hk.even (Or.inr (by grind))
    have hNext : (k : Rat) = ((n + 1 : Nat) : Rat) := by
      rw [Rat.natCast_add]
      grind
    rw [Rat.natCast_inj] at hNext
    omega
  have := hNot hn hk
  have := hNot hk hn
  omega

/-- The nearest number is an even one from half a unit below it on. -/
theorem IsNearest.le_iff {y : Rat} {n k : Nat} (h : IsNearest y n) (hEven : k % 2 = 0) :
    k ≤ n ↔ (2 * k - 1 : Rat) ≤ 2 * y := by
  have hAbove := h.above
  have hBelow := h.below
  constructor
  · intro hLe
    have hCast : (k : Rat) ≤ n := Rat.natCast_le_natCast.2 hLe
    grind
  · intro hLe
    rw [← Nat.not_lt]
    intro hLess
    have hStep : ((n + 1 : Nat) : Rat) ≤ k := Rat.natCast_le_natCast.2 hLess
    rw [Rat.natCast_add] at hStep
    -- the number is in the middle between `n` and `k`, and `n` is odd
    have hOdd := h.even (Or.inl (by grind))
    have hNext : (k : Rat) = ((n + 1 : Nat) : Rat) := by
      rw [Rat.natCast_add]
      grind
    rw [Rat.natCast_inj] at hNext
    omega

theorem natCast_two_mul_sub_one {p : Nat} (h : 0 < p) : ((2 * p - 1 : Nat) : Rat) = 2 * p - 1 := by
  have hCast : ((2 * p - 1 + 1 : Nat) : Rat) = ((2 * p : Nat) : Rat) := by
    rw [Nat.sub_add_cancel (by omega)]
  simp only [Rat.natCast_add, Rat.natCast_mul, Rat.natCast_ofNat] at hCast ⊢
  grind

/-- A number keeps its count of digits. -/
theorem IsNearest.tenPow_le {y : Rat} {n c : Nat} (h : IsNearest y n)
    (hLow : ((10 ^ c : Nat) : Rat) ≤ y) : 10 ^ c ≤ n := by
  have hBelow := h.below
  rw [← Nat.not_lt]
  intro hFew
  have hCast : ((n + 1 : Nat) : Rat) ≤ ((10 ^ c : Nat) : Rat) := Rat.natCast_le_natCast.2 hFew
  rw [Rat.natCast_add] at hCast
  grind

/-- Of a number with `count` digits, the nearest one reaches the next power of ten from half a unit
below it on, a smaller power in any case and a larger one never. -/
theorem IsNearest.tenZpow_mul_le_iff {y : Rat} {n count : Nat} (h : IsNearest y n)
    (hCount : 0 < count) (hLow : ((10 ^ count : Nat) : Rat) ≤ 10 * y)
    (hHigh : y < ((10 ^ count : Nat) : Rat)) (s : Int) :
    10 ^ s * ((10 ^ count : Nat) : Rat) ≤ n ↔
      (2 * ((10 ^ count : Nat) : Rat) - 1) * 10 ^ s ≤ 2 * y := by
  obtain ⟨c, rfl⟩ : ∃ c, count = c + 1 := ⟨count - 1, by omega⟩
  have hOne : (1 : Rat) ≤ ((10 ^ c : Nat) : Rat) :=
    Rat.natCast_le_natCast.2 (Nat.pow_pos (by decide))
  have hAbove := h.above
  rcases Int.lt_trichotomy s 0 with hLess | rfl | hMore
  · have hStep : 10 * (10 : Rat) ^ s ≤ 1 := tenZpow_le_of_lt hLess
    have hPos := tenZpow_pos s
    rw [Nat.pow_succ, Rat.natCast_mul, Rat.natCast_ofNat] at hLow ⊢
    have hWhole : ((10 ^ c : Nat) : Rat) ≤ n :=
      Rat.natCast_le_natCast.2 (h.tenPow_le (by grind))
    generalize ((10 ^ c : Nat) : Rat) = p at hOne hLow hWhole ⊢
    have hScaled := Rat.mul_le_mul_of_nonneg_right hStep (show 0 ≤ p by grind)
    refine iff_of_true ?_ ?_
    · grind
    · grind
  · have hEven : 10 ^ (c + 1) % 2 = 0 := by
      rw [Nat.pow_succ]
      omega
    rw [Rat.zpow_zero, Rat.one_mul, Rat.mul_one, Rat.natCast_le_natCast]
    exact h.le_iff hEven
  · have hStep : 10 * 1 ≤ (10 : Rat) ^ s := tenZpow_le_of_lt hMore
    rw [Nat.pow_succ, Rat.natCast_mul, Rat.natCast_ofNat] at hHigh ⊢
    generalize ((10 ^ c : Nat) : Rat) = p at hOne hHigh ⊢
    have hScaled := Rat.mul_le_mul_of_nonneg_right hStep (show 0 ≤ p by grind)
    have hTwice := Rat.mul_le_mul_of_nonneg_right hStep (show 0 ≤ 2 * (p * 10) - 1 by grind)
    refine iff_of_false ?_ ?_
    · intro hLe
      grind
    · intro hLe
      grind

/-- Halves are rounded to the even number. -/
theorem roundHalfEven_even {num den : Nat} (hDen : 0 < den)
    (h : 2 * num = (2 * roundHalfEven num den + 1) * den ∨
      2 * num + den = 2 * roundHalfEven num den * den) : roundHalfEven num den % 2 = 0 := by
  have hNum : num / den * den + num % den = num := Nat.div_add_mod' num den
  have hMod : num % den < den := Nat.mod_lt num hDen
  have hSame : (2 * (num / den) + 1) * den = 2 * (num / den * den) + den := by
    rw [Nat.add_mul, Nat.mul_assoc, Nat.one_mul]
  have hNext : (2 * (num / den + 1) + 1) * den = 2 * (num / den * den) + 3 * den := by
    rw [show 2 * (num / den + 1) + 1 = 2 * (num / den) + 3 by omega, Nat.add_mul, Nat.mul_assoc]
  have hTwice : 2 * (num / den) * den = 2 * (num / den * den) := Nat.mul_assoc _ _ _
  have hTwiceNext : 2 * (num / den + 1) * den = 2 * (num / den * den) + 2 * den := by
    rw [Nat.mul_add, Nat.add_mul, Nat.mul_assoc]
  unfold roundHalfEven at h ⊢
  dsimp only at h ⊢
  by_cases hLess : 2 * (num % den) < den
  · rw [if_pos hLess, hSame, hTwice] at h
    omega
  · rw [if_neg hLess] at h ⊢
    by_cases hMore : 2 * (num % den) > den
    · rw [if_pos hMore, hNext, hTwiceNext] at h
      omega
    · rw [if_neg hMore]
      split <;> omega

theorem isNearest_roundHalfEven {num den : Nat} (hDen : 0 < den) {y : Rat} (hy : y * den = num) :
    IsNearest y (roundHalfEven num den) := by
  obtain ⟨hBelow, hAbove⟩ := dist_roundHalfEven_le num hDen
  have hEven := @roundHalfEven_even num den hDen
  generalize roundHalfEven num den = r at hBelow hAbove hEven
  have hPos : (0 : Rat) < den := Rat.natCast_pos.2 hDen
  have hScale : ∀ {a b : Rat}, a * den ≤ b * den → a ≤ b := fun h =>
    Rat.le_of_mul_le_mul_right h hPos
  refine ⟨hScale ?_, hScale ?_, ?_⟩
  · have hCast : ((2 * num : Nat) : Rat) ≤ ((2 * (r * den) + den : Nat) : Rat) :=
      Rat.natCast_le_natCast.2 (by omega)
    simp only [Rat.natCast_add, Rat.natCast_mul, Rat.natCast_ofNat, ← hy] at hCast
    grind
  · have hCast : ((2 * (r * den) : Nat) : Rat) ≤ ((2 * num + den : Nat) : Rat) :=
      Rat.natCast_le_natCast.2 (by omega)
    simp only [Rat.natCast_add, Rat.natCast_mul, Rat.natCast_ofNat, ← hy] at hCast
    grind
  · intro hHalf
    apply hEven
    rw [← Rat.natCast_inj, ← Rat.natCast_inj]
    simp only [Rat.natCast_add, Rat.natCast_mul, Rat.natCast_ofNat, ← hy]
    rcases hHalf with hHalf | hHalf
    · left
      have hDouble : 2 * y = 2 * r + 1 := by grind
      grind
    · right
      have hDouble : 2 * y + 1 = 2 * r := by grind
      grind

/-! ## Rounding to significant digits -/

/-- With its point behind a count of digits the number is `y`, and `r` is the number that has the
nearest whole number there. -/
def RoundsTo (count : Nat) (x r : Rat) : Prop :=
  ∃ (e : Int) (y : Rat) (n : Nat), x = y * 10 ^ e ∧ ((10 ^ count : Nat) : Rat) ≤ 10 * y ∧
    y < ((10 ^ count : Nat) : Rat) ∧ IsNearest y n ∧ r = n * 10 ^ e

namespace RoundsTo

variable {count : Nat} {x r : Rat}

theorem unique {r' : Rat} (h : RoundsTo count x r) (h' : RoundsTo count x r') : r = r' := by
  obtain ⟨e, y, n, hx, hLow, hHigh, hNearest, rfl⟩ := h
  obtain ⟨e', y', n', hx', hLow', hHigh', hNearest', rfl⟩ := h'
  have hNot : ∀ {e e' : Int} {y y' : Rat}, x = y * 10 ^ e → x = y' * 10 ^ e' →
      y < ((10 ^ count : Nat) : Rat) → ((10 ^ count : Nat) : Rat) ≤ 10 * y' → ¬ e < e' := by
    intro e e' y y' hx hx' hHigh hLow hLess
    have hStep := tenZpow_le_of_lt hLess
    have hPos := tenZpow_pos e
    have hTen := Numeral.tenPow_pos count
    have hFirst := Rat.mul_lt_mul_of_pos_right hHigh hPos
    have hSecond := Rat.mul_le_mul_of_nonneg_left hStep (Rat.le_of_lt (show 0 < y' by grind))
    have hThird := Rat.mul_le_mul_of_nonneg_right hLow (Rat.le_of_lt hPos)
    grind
  have hSame : e = e' := by
    have := hNot hx hx' hHigh hLow'
    have := hNot hx' hx hHigh' hLow
    omega
  subst hSame
  have hPlace : y = y' := by
    have hNe := Rat.ne_of_gt (tenZpow_pos e)
    rw [← Rat.mul_div_cancel (a := y) hNe, ← hx, hx', Rat.mul_div_cancel hNe]
  subst hPlace
  rw [hNearest.unique hNearest']

/-- The rounded number reaches a power of ten from half a step of its last digit below it on. -/
theorem tenZpow_le_iff (h : RoundsTo count x r) (hCount : 0 < count) (k : Int) :
    10 ^ k ≤ r ↔ ((2 * 10 ^ count - 1 : Nat) : Rat) * 10 ^ (k - count) ≤ 2 * x := by
  obtain ⟨e, y, n, rfl, hLow, hHigh, hNearest, rfl⟩ := h
  obtain ⟨s, rfl⟩ : ∃ s : Int, k = s + (e + count) := ⟨k - (e + count), by omega⟩
  have hPow : (10 : Rat) ^ (s + (e + count)) = 10 ^ s * ((10 ^ count : Nat) : Rat) * 10 ^ e := by
    rw [tenZpow_add, tenZpow_add, tenZpow_natCast]
    grind
  have hShift : (10 : Rat) ^ (s + (e + count) - count) = 10 ^ s * 10 ^ e := by
    rw [← tenZpow_add]
    congr 1
    omega
  rw [hPow, hShift, natCast_two_mul_sub_one (Nat.pow_pos (by decide)), ← Rat.mul_assoc,
    ← Rat.mul_assoc, mul_le_mul_right_iff (tenZpow_pos e), mul_le_mul_right_iff (tenZpow_pos e)]
  exact hNearest.tenZpow_mul_le_iff hCount hLow hHigh s

theorem pos (h : RoundsTo count x r) (hCount : 0 < count) : 0 < r := by
  obtain ⟨e, y, n, rfl, hLow, -, hNearest, rfl⟩ := h
  have hTen : ((10 ^ 1 : Nat) : Rat) ≤ ((10 ^ count : Nat) : Rat) :=
    Rat.natCast_le_natCast.2 (Nat.pow_le_pow_right (by decide) hCount)
  have hBelow := hNearest.below
  rw [show ((10 ^ 1 : Nat) : Rat) = 10 from rfl] at hTen
  exact Rat.mul_pos (by grind) (tenZpow_pos e)

end RoundsTo

/-! ## Decimals -/

namespace Decimal

/-- The number that the decimal writes. -/
def number (d : Decimal) : Rat := d.digits * 10 ^ d.exponent

theorem number_dropTrailingZeros (fuel : Nat) (d : Decimal) :
    (dropTrailingZeros fuel d).number = d.number := by
  induction fuel generalizing d with
  | zero => rfl
  | succ fuel ih =>
    unfold dropTrailingZeros
    split
    · rename_i hZero
      have hDigits : (d.digits : Rat) = ((d.digits / 10 : Nat) : Rat) * 10 := by
        rw [← Rat.natCast_ofNat, ← Rat.natCast_mul, Rat.natCast_inj]
        omega
      rw [ih, number, number, tenZpow_add, hDigits, Rat.zpow_one]
      grind
    · rfl

theorem number_normal (d : Decimal) : d.normal.number = d.number := number_dropTrailingZeros _ d

/-- The next decimal with as many places is not above the next power of ten. -/
theorem next_le (d : Decimal) :
    ((d.digits + 1 : Nat) : Rat) * 10 ^ d.exponent ≤ 10 ^ (d.leadingExponent + 1) := by
  have hDigits : d.digits < 10 ^ (ofNat d.digits).length :=
    (length_ofNat_le_iff (List.length_pos_iff.2 (ofNat_ne_nil d.digits))).1 (Nat.le_refl _)
  have hLead : d.leadingExponent + 1 = (ofNat d.digits).length + d.exponent := by
    unfold leadingExponent
    omega
  rw [hLead, tenZpow_add, tenZpow_natCast]
  exact Rat.mul_le_mul_of_nonneg_right (Rat.natCast_le_natCast.2 hDigits)
    (Rat.le_of_lt (tenZpow_pos d.exponent))

theorem tenZpow_leadingExponent_le {d : Decimal} (h : d.digits ≠ 0) :
    10 ^ d.leadingExponent ≤ d.number := by
  have hLength : (ofNat d.digits).length ≠ 0 := by
    simpa using ofNat_ne_nil d.digits
  obtain ⟨len, hLen⟩ : ∃ len, (ofNat d.digits).length = len + 1 := ⟨_, (Nat.succ_pred hLength).symm⟩
  have hLow : 10 ^ len ≤ d.digits := by
    rcases Nat.eq_zero_or_pos len with rfl | hPos
    · exact Nat.pos_of_ne_zero h
    · rw [← Nat.not_lt, ← length_ofNat_le_iff hPos]
      omega
  have hLead : d.leadingExponent = len + d.exponent := by
    unfold leadingExponent
    omega
  rw [hLead, tenZpow_add, tenZpow_natCast, number]
  exact Rat.mul_le_mul_of_nonneg_right (Rat.natCast_le_natCast.2 hLow)
    (Rat.le_of_lt (tenZpow_pos d.exponent))

/-- The leading digit has the largest power of ten that is not above the number. -/
theorem tenZpow_le_number_iff {d : Decimal} (h : 0 < d.number) (k : Int) :
    10 ^ k ≤ d.number ↔ k ≤ d.leadingExponent := by
  have hDigits : d.digits ≠ 0 := by
    intro hZero
    rw [number, hZero] at h
    grind
  constructor
  · intro hLe
    rw [← Int.not_lt]
    intro hLess
    have hNext := Rat.le_trans d.next_le (tenZpow_le hLess)
    have hPos := tenZpow_pos d.exponent
    rw [Rat.natCast_add] at hNext
    rw [number] at hLe
    grind
  · intro hLe
    exact Rat.le_trans (tenZpow_le hLe) (tenZpow_leadingExponent_le hDigits)

/-- Cut off behind some places, a quotient becomes a decimal that is less than a step below it. -/
theorem number_cut_bounds {d : Decimal} {num den places : Nat} (hDen : 0 < den)
    (hDigits : d.digits = num * 10 ^ places / den) (hPlaces : d.exponent = -(places : Int)) :
    d.number ≤ (num : Rat) / den ∧
      (num : Rat) / den < ((d.digits + 1 : Nat) : Rat) * 10 ^ d.exponent := by
  have hUnit : (0 : Rat) < den := Rat.natCast_pos.2 hDen
  have hLow : d.digits * den ≤ num * 10 ^ places := by
    rw [hDigits]
    exact Nat.div_mul_le_self _ _
  have hHigh : num * 10 ^ places < (d.digits + 1) * den := by
    rw [hDigits]
    exact Nat.lt_mul_of_div_lt (Nat.lt_succ_self _) hDen
  have hPos := tenZpow_pos d.exponent
  have hPow : ((10 ^ places : Nat) : Rat) * 10 ^ d.exponent = 1 := by
    rw [← tenZpow_natCast, ← tenZpow_add, hPlaces, Int.add_right_neg, Rat.zpow_zero]
  have hScaled : ((num * 10 ^ places : Nat) : Rat) * 10 ^ d.exponent = num := by
    rw [Rat.natCast_mul, Rat.mul_assoc, hPow, Rat.mul_one]
  have hMove : ∀ k : Nat,
      ((k * den : Nat) : Rat) * 10 ^ d.exponent = k * 10 ^ d.exponent * den := by
    intro k
    rw [Rat.natCast_mul, Rat.mul_assoc, Rat.mul_comm (den : Rat), ← Rat.mul_assoc]
  constructor
  · have hCast := Rat.mul_le_mul_of_nonneg_right (Rat.natCast_le_natCast.2 hLow) (Rat.le_of_lt hPos)
    rw [← Rat.not_lt, Rat.div_lt_iff hUnit, Rat.not_lt, number]
    rwa [hScaled, hMove] at hCast
  · have hCast := Rat.mul_lt_mul_of_pos_right (Rat.natCast_lt_natCast.2 hHigh) hPos
    rw [Rat.div_lt_iff hUnit]
    rwa [hScaled, hMove] at hCast

end Decimal

/-! ## Numbers of units -/

namespace Binary64

/-- The number, if it is finite. -/
def number? : Binary64 → Option Rat
  | .finite negative units _ => some ((signed negative units : Rat) / unitsPerOne)
  | _ => none

theorem inSteps_spec (exponent : Int) (num : Nat) {den : Nat} (hDen : 0 < den) :
    0 < (inSteps exponent num den).2 ∧
      ((inSteps exponent num den).1 : Rat) * den * 10 ^ exponent =
        num * (inSteps exponent num den).2 := by
  unfold inSteps
  split
  · obtain ⟨k, rfl⟩ : ∃ k : Nat, exponent = k := ⟨exponent.toNat, by omega⟩
    rw [Int.toNat_natCast, tenZpow_natCast, Rat.natCast_mul]
    exact ⟨Nat.mul_pos hDen (Nat.pow_pos (by decide)), by grind⟩
  · obtain ⟨k, rfl⟩ : ∃ k : Nat, exponent = -(k : Int) := ⟨(-exponent).toNat, by omega⟩
    have hPow : ((10 ^ k : Nat) : Rat) * 10 ^ (-(k : Int)) = 1 := by
      rw [← tenZpow_natCast, ← tenZpow_add, Int.add_right_neg, Rat.zpow_zero]
    rw [Int.neg_neg, Int.toNat_natCast, Rat.natCast_mul]
    exact ⟨hDen, by grind⟩

theorem unitsPerOne_le_tenPow : unitsPerOne ≤ 10 ^ 400 := by
  have hPow : ∀ a b : Nat, a ≤ 3 * b → 2 ^ a ≤ 10 ^ b := by
    intro a b h
    calc
      2 ^ a ≤ 2 ^ (3 * b) := Nat.pow_le_pow_right (by decide) h
      _ = 8 ^ b := by rw [Nat.pow_mul]
      _ ≤ 10 ^ b := Nat.pow_le_pow_left (by decide) b
  unfold unitsPerOne
  exact hPow 1074 400 (by decide)

/-- The leading digit of a positive number has the largest power of ten that is not above it. -/
theorem leadingExponent_bounds {units : Nat} (h : 0 < units) :
    (10 : Rat) ^ leadingExponent units ≤ (units : Rat) / unitsPerOne ∧
      (units : Rat) / unitsPerOne < 10 ^ (leadingExponent units + 1) := by
  -- the number is cut off so far behind the point that something of it is left
  obtain ⟨places, hPlaces, hOne⟩ : ∃ places, places = 400 ∧ unitsPerOne ≤ 10 ^ places :=
    ⟨400, rfl, unitsPerOne_le_tenPow⟩
  obtain ⟨d, hd, hExponent⟩ : ∃ d : Decimal,
      d.digits = units * 10 ^ places / unitsPerOne ∧ d.exponent = -(places : Int) :=
    ⟨⟨_, _⟩, rfl, rfl⟩
  have hLead : leadingExponent units = d.leadingExponent := by
    rw [leadingExponent, Decimal.leadingExponent, hd, hExponent, hPlaces]
    omega
  have hDigits : 0 < d.digits := by
    rw [hd]
    exact Nat.div_pos (Nat.le_trans hOne (Nat.le_mul_of_pos_left _ h)) unitsPerOne_pos
  obtain ⟨hBelow, hAbove⟩ := Decimal.number_cut_bounds unitsPerOne_pos hd hExponent
  rw [hLead]
  constructor
  · exact Rat.le_trans (Decimal.tenZpow_leadingExponent_le (Nat.ne_of_gt hDigits)) hBelow
  · exact Std.lt_of_lt_of_le hAbove d.next_le

/-- The decimal that is found is the number rounded to the significant digits. -/
theorem roundsTo_significant {count units : Nat} (h : 0 < units) :
    RoundsTo count ((units : Rat) / unitsPerOne) (significant count units).number := by
  obtain ⟨hLow, hHigh⟩ := leadingExponent_bounds h
  rw [significant, roundedFrom]
  obtain ⟨e, he⟩ : ∃ e : Int, e = leadingExponent units - count + 1 := ⟨_, rfl⟩
  rw [← he]
  obtain ⟨hDen, hSteps⟩ := inSteps_spec e units unitsPerOne_pos
  generalize inSteps e units unitsPerOne = pair at hDen hSteps
  obtain ⟨num, den⟩ := pair
  have hUnit : (0 : Rat) < unitsPerOne := Rat.natCast_pos.2 unitsPerOne_pos
  have hPos := tenZpow_pos e
  have hCancel : (units : Rat) / unitsPerOne * unitsPerOne = units :=
    Rat.div_mul_cancel (Rat.ne_of_gt hUnit)
  have hNext : (10 : Rat) ^ (leadingExponent units + 1) = ((10 ^ count : Nat) : Rat) * 10 ^ e := by
    rw [← tenZpow_natCast, ← tenZpow_add, he]
    congr 1
    omega
  have hLead : 10 * (10 : Rat) ^ leadingExponent units = 10 ^ (leadingExponent units + 1) := by
    rw [tenZpow_add, Rat.zpow_one, Rat.mul_comm]
  generalize (units : Rat) / unitsPerOne = x at hLow hHigh hCancel
  obtain ⟨y, rfl⟩ : ∃ y, x = y * 10 ^ e :=
    ⟨x / 10 ^ e, (Rat.div_mul_cancel (Rat.ne_of_gt hPos)).symm⟩
  have hNearest : IsNearest y (roundHalfEven num den) := by
    refine isNearest_roundHalfEven hDen (eq_of_mul_eq_mul_right (Rat.mul_pos hUnit hPos) ?_)
    calc
      y * den * (unitsPerOne * 10 ^ e) = y * 10 ^ e * unitsPerOne * den :=
        mul_mul_mul_mul_reverse _ _ _ _
      _ = num * (unitsPerOne * 10 ^ e) := by rw [hCancel, ← hSteps, Rat.mul_assoc]
  refine ⟨e, y, _, rfl, ?_, ?_, hNearest, Decimal.number_normal _⟩
  · rw [← mul_le_mul_right_iff hPos, ← hNext, ← hLead, Rat.mul_assoc]
    exact Rat.mul_le_mul_of_nonneg_left hLow (by decide)
  · rwa [← Rat.mul_lt_mul_right hPos, ← hNext]

/-- Where the leading digit of the rounded number stands. -/
theorem le_leadingExponent_significant_iff {count units : Nat} (h : 0 < units) (hCount : 0 < count)
    (k : Int) : k ≤ (significant count units).leadingExponent ↔
      ((2 * 10 ^ count - 1 : Nat) : Rat) * 10 ^ (k - count) ≤ 2 * ((units : Rat) / unitsPerOne) := by
  have hRounds : RoundsTo count ((units : Rat) / unitsPerOne) (significant count units).number :=
    roundsTo_significant h
  rw [← Decimal.tenZpow_le_number_iff (hRounds.pos hCount), hRounds.tenZpow_le_iff hCount]

end Binary64

end StyleScaffold
