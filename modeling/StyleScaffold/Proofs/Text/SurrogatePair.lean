import StyleScaffold.Text.Encoding

/-!
# Surrogate pairs

Joining puts one character in the place of the two halves of each surrogate pair in a text. A joined
text has no pair in it (`pairFree_joinHalves`), and a text without pairs is left as it is
(`joinHalves_eq_self_iff`).
-/

namespace StyleScaffold

/-! ## Halves -/

namespace CodePoint

theorem isHighHalf_iff {c : CodePoint} :
    c.isHighHalf = true ↔ 0xD800 ≤ c.toNat ∧ c.toNat < 0xDC00 := by
  rw [isHighHalf, Bool.and_eq_true, decide_eq_true_eq, decide_eq_true_eq]

theorem isLowHalf_iff {c : CodePoint} :
    c.isLowHalf = true ↔ 0xDC00 ≤ c.toNat ∧ c.toNat < 0xE000 := by
  rw [isLowHalf, Bool.and_eq_true, decide_eq_true_eq, decide_eq_true_eq]

theorem isLowHalf_of_isHighHalf {c : CodePoint} (h : c.isHighHalf = true) :
    c.isLowHalf = false := by
  rw [isHighHalf_iff] at h
  rw [Bool.eq_false_iff, Ne, isLowHalf_iff]
  omega

theorem isHighHalf_of_isLowHalf {c : CodePoint} (h : c.isLowHalf = true) :
    c.isHighHalf = false := by
  rw [isLowHalf_iff] at h
  rw [Bool.eq_false_iff, Ne, isHighHalf_iff]
  omega

theorem toNat_lt (c : CodePoint) : c.toNat < 0x110000 := by
  cases c with
  | char c =>
    have hValid : c.toNat < 0xD800 ∨ (0xDFFF < c.toNat ∧ c.toNat < 0x110000) := c.valid
    rw [toNat_char]
    omega
  | surrogate place =>
    have hPlace := place.isLt
    simp only [toNat, firstSurrogate]
    omega

/-- Every number below the last code point is the number of one. -/
theorem toNat_ofNat {n : Nat} (h : n < 0x110000) : (ofNat n).toNat = n := by
  unfold ofNat
  split
  · rename_i hSurrogate
    have hPlace := hSurrogate.1
    simp only [toNat]
    omega
  · rename_i hSurrogate
    have hValid : n.isValidChar := by
      unfold firstSurrogate at hSurrogate
      unfold Nat.isValidChar
      omega
    rw [if_pos hValid, toNat_char, Char.ofNat, dif_pos hValid]
    rfl

theorem toNat_ofHalves {high low : CodePoint} (hHigh : high.isHighHalf = true)
    (hLow : low.isLowHalf = true) :
    (ofHalves high low).toNat = 0x10000 + 0x400 * (high.toNat - 0xD800) + (low.toNat - 0xDC00) := by
  rw [isHighHalf_iff] at hHigh
  rw [isLowHalf_iff] at hLow
  rw [ofHalves, toNat_ofNat (by omega)]

/-- The character of a surrogate pair is no half itself. -/
theorem isHalf_ofHalves {high low : CodePoint} (hHigh : high.isHighHalf = true)
    (hLow : low.isLowHalf = true) :
    (ofHalves high low).isHighHalf = false ∧ (ofHalves high low).isLowHalf = false := by
  rw [Bool.eq_false_iff, Bool.eq_false_iff, Ne, Ne, isHighHalf_iff, isLowHalf_iff,
    toNat_ofHalves hHigh hLow]
  omega

end CodePoint

namespace Text

/-! ## Joining -/

/-- Whether no first half of a surrogate pair stands directly in front of a second half. -/
def pairFree : Text → Bool
  | high :: low :: rest => ! (high.isHighHalf && low.isLowHalf) && pairFree (low :: rest)
  | _ => true

theorem joinHalves_pair {high low : CodePoint} (hHigh : high.isHighHalf = true)
    (hLow : low.isLowHalf = true) (s : Text) :
    joinHalves (high :: low :: s) = .ofHalves high low :: joinHalves s := by
  rw [joinHalves, hHigh, hLow]
  rfl

/-- Nothing is joined at a code point that does not start a pair. -/
theorem joinHalves_cons {c : CodePoint} {s : Text}
    (h : (c.isHighHalf && s.head?.any CodePoint.isLowHalf) = false) :
    joinHalves (c :: s) = c :: joinHalves s := by
  cases s with
  | nil => simp [joinHalves]
  | cons d s =>
    rw [List.head?_cons, Option.any_some] at h
    rw [joinHalves, h]
    rfl

theorem pairFree_cons (c : CodePoint) (s : Text) :
    pairFree (c :: s) = (! (c.isHighHalf && s.head?.any CodePoint.isLowHalf) && pairFree s) := by
  cases s with
  | nil => simp [pairFree]
  | cons d s => rfl

/-- Only a second half at its start makes a joined text start with one. -/
theorem isLowHalf_head_joinHalves {s : Text}
    (h : (joinHalves s).head?.any CodePoint.isLowHalf = true) :
    s.head?.any CodePoint.isLowHalf = true := by
  fun_cases joinHalves s with
  | case1 high low rest hPair =>
    rw [joinHalves, if_pos hPair, List.head?_cons, Option.any_some] at h
    rw [Bool.and_eq_true] at hPair
    rw [(CodePoint.isHalf_ofHalves hPair.1 hPair.2).2] at h
    cases h
  | case2 high low rest hPair =>
    rw [joinHalves, if_neg hPair] at h
    exact h
  | case3 s hShort =>
    rwa [joinHalves] at h
    exact hShort

theorem pairFree_joinHalves (s : Text) : pairFree (joinHalves s) = true := by
  fun_induction joinHalves s with
  | case1 high low rest hPair ih =>
    rw [Bool.and_eq_true] at hPair
    rw [pairFree_cons, (CodePoint.isHalf_ofHalves hPair.1 hPair.2).1, ih]
    rfl
  | case2 high low rest hPair ih =>
    rw [pairFree_cons, ih, Bool.and_true, Bool.not_eq_true']
    rw [Bool.not_eq_true, Bool.and_eq_false_iff] at hPair
    rw [Bool.and_eq_false_iff]
    refine hPair.imp_right fun hLow => ?_
    rw [Bool.eq_false_iff]
    intro hHead
    have hStart := isLowHalf_head_joinHalves hHead
    rw [List.head?_cons, Option.any_some, hLow] at hStart
    cases hStart
  | case3 s hShort =>
    cases s with
    | nil => rfl
    | cons c s =>
      cases s with
      | nil => rfl
      | cons d s => exact absurd rfl (hShort c d s)

theorem joinHalves_of_pairFree {s : Text} (h : pairFree s = true) : joinHalves s = s := by
  induction s with
  | nil => rfl
  | cons c s ih =>
    rw [pairFree_cons, Bool.and_eq_true, Bool.not_eq_true'] at h
    rw [joinHalves_cons h.1, ih h.2]

theorem joinHalves_eq_self_iff {s : Text} : joinHalves s = s ↔ pairFree s = true :=
  ⟨fun h => h ▸ pairFree_joinHalves s, joinHalves_of_pairFree⟩

end Text

end StyleScaffold
