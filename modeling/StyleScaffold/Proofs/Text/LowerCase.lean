import StyleScaffold.Text.Ascii
import StyleScaffold.Text.LowerCase

/-!
# Lower case of ASCII

In a text of ASCII neither a special character nor any row of capitals but the first one matters,
so lower-casing goes character by character and does not look around (`lower_eq_map`). It keeps
letters and digits what they are, and doing it again changes nothing (`lower_lower`).
-/

namespace StyleScaffold.Text

theorem isAsciiLetter_iff {c : CodePoint} :
    isAsciiLetter c = true ↔
      (0x61 ≤ c.toNat ∧ c.toNat ≤ 0x7A) ∨ (0x41 ≤ c.toNat ∧ c.toNat ≤ 0x5A) := by
  simp only [isAsciiLetter, Bool.or_eq_true, Bool.and_eq_true, decide_eq_true_eq]
  exact Iff.rfl

theorem isAsciiAlnum_iff {c : CodePoint} :
    isAsciiAlnum c = true ↔ (0x30 ≤ c.toNat ∧ c.toNat ≤ 0x39) ∨ isAsciiLetter c = true := by
  simp only [isAsciiAlnum, isAsciiDigit, Bool.or_eq_true, Bool.and_eq_true, decide_eq_true_eq]
  exact Iff.rfl

theorem isAscii_of_isAsciiAlnum {c : CodePoint} (h : isAsciiAlnum c = true) : isAscii c = true := by
  rw [isAsciiAlnum_iff, isAsciiLetter_iff] at h
  rw [isAscii, decide_eq_true_eq]
  omega

/-! ## One character -/

theorem ofNat_eq_char {n : Nat} (h : n < 0x80) : CodePoint.ofNat n = .char (Char.ofNat n) := by
  have hSurrogate : ¬ (CodePoint.firstSurrogate ≤ n ∧ n - CodePoint.firstSurrogate < 0x800) := by
    unfold CodePoint.firstSurrogate
    omega
  have hValid : n.isValidChar := Or.inl (by omega)
  rw [CodePoint.ofNat, dif_neg hSurrogate, if_pos hValid]

theorem toNat_ofNat {n : Nat} (h : n < 0x80) : (CodePoint.ofNat n).toNat = n := by
  have hValid : n.isValidChar := Or.inl (by omega)
  rw [ofNat_eq_char h, CodePoint.toNat_char, Char.ofNat, dif_pos hValid]
  rfl

theorem toNat_asciiLower (c : CodePoint) :
    (asciiLower c).toNat =
      if 0x41 ≤ c.toNat ∧ c.toNat ≤ 0x5A then c.toNat + 32 else c.toNat := by
  have hCapital : ('A' ≤ c ∧ c ≤ 'Z') ↔ 0x41 ≤ c.toNat ∧ c.toNat ≤ 0x5A := Iff.rfl
  unfold asciiLower
  by_cases h : 0x41 ≤ c.toNat ∧ c.toNat ≤ 0x5A
  · rw [if_pos (hCapital.2 h), if_pos h, toNat_ofNat (by omega)]
  · rw [if_neg (mt hCapital.1 h), if_neg h]

theorem isAsciiLetter_asciiLower_iff {c : CodePoint} :
    isAsciiLetter (asciiLower c) = true ↔ isAsciiLetter c = true := by
  rw [isAsciiLetter_iff, isAsciiLetter_iff, toNat_asciiLower]
  split <;> omega

theorem isAsciiLetter_asciiLower {c : CodePoint} (h : isAsciiLetter c = true) :
    isAsciiLetter (asciiLower c) = true := isAsciiLetter_asciiLower_iff.2 h

theorem isAsciiAlnum_asciiLower {c : CodePoint} (h : isAsciiAlnum c = true) :
    isAsciiAlnum (asciiLower c) = true := by
  rw [isAsciiAlnum_iff] at h ⊢
  rcases h with hDigit | hLetter
  · rw [toNat_asciiLower, if_neg (by omega)]
    exact Or.inl hDigit
  · exact Or.inr (isAsciiLetter_asciiLower hLetter)

theorem asciiLower_asciiLower (c : CodePoint) : asciiLower (asciiLower c) = asciiLower c := by
  apply CodePoint.eq_of_toNat_eq
  rw [toNat_asciiLower (asciiLower c), if_neg]
  rw [toNat_asciiLower c]
  split <;> omega

/-- The first row of capitals is the one of ASCII, and the others lie behind ASCII. -/
theorem capitalRows_eq :
    ∃ rows, capitalRows = ⟨0x41, 0x5A, 1, 32⟩ :: rows ∧ ∀ row ∈ rows, 0x80 ≤ row.first :=
  ⟨capitalRows.tail, rfl, by decide +kernel⟩

theorem lowerChar_eq {c : CodePoint} (h : isAscii c = true) : lowerChar c = asciiLower c := by
  rw [isAscii, decide_eq_true_eq] at h
  obtain ⟨rows, hRows, hBehind⟩ := capitalRows_eq
  have hNone : rows.find? (·.contains c.toNat) = none := by
    rw [List.find?_eq_none]
    intro row hRow
    have := hBehind row hRow
    simp only [CapitalRow.contains, Bool.and_eq_true, decide_eq_true_eq]
    omega
  apply CodePoint.eq_of_toNat_eq
  rw [toNat_asciiLower, lowerChar, hRows]
  by_cases hCapital : 0x41 ≤ c.toNat ∧ c.toNat ≤ 0x5A
  · have hRow : CapitalRow.contains ⟨0x41, 0x5A, 1, 32⟩ c.toNat = true := by
      simp [CapitalRow.contains, hCapital, Nat.mod_one]
    have hShift : (c.toNat + (32 : Int)).toNat = c.toNat + 32 := by omega
    rw [List.find?_cons, hRow, if_pos hCapital]
    dsimp only
    rw [hShift, ← ofNat_eq_char (by omega), toNat_ofNat (by omega)]
  · have hRow : CapitalRow.contains ⟨0x41, 0x5A, 1, 32⟩ c.toNat = false := by
      rw [Bool.eq_false_iff]
      simp only [CapitalRow.contains, ne_eq, Bool.and_eq_true, decide_eq_true_eq]
      omega
    rw [List.find?_cons, hRow, hNone, if_neg hCapital]

/-! ## A text -/

theorem lower_eq_map {s : Text} (h : ∀ c ∈ s, isAscii c = true) : lower s = s.map asciiLower := by
  have hAfter : ∀ passed, lowerAfter passed s = s.map asciiLower := by
    induction s with
    | nil => exact fun _ => rfl
    | cons c rest ih =>
      intro passed
      have hc := h c List.mem_cons_self
      have hDotted : c ≠ 'İ' := by
        rintro rfl
        exact absurd hc (by decide)
      have hSigma : c ≠ 'Σ' := by
        rintro rfl
        exact absurd hc (by decide)
      rw [lowerAfter, if_neg hDotted, if_neg hSigma, lowerChar_eq hc,
        ih fun d hd => h d (List.mem_cons_of_mem c hd)]
      rfl
  exact hAfter []

theorem isAsciiAlnum_of_mem_lower {s : Text} (h : ∀ c ∈ s, isAsciiAlnum c = true) :
    ∀ c ∈ lower s, isAsciiAlnum c = true := by
  intro c hc
  rw [lower_eq_map fun d hd => isAscii_of_isAsciiAlnum (h d hd)] at hc
  obtain ⟨d, hd, rfl⟩ := List.mem_map.1 hc
  exact isAsciiAlnum_asciiLower (h d hd)

theorem lower_lower {s : Text} (h : ∀ c ∈ s, isAsciiAlnum c = true) : lower (lower s) = lower s := by
  have hLower := isAsciiAlnum_of_mem_lower h
  rw [lower_eq_map fun c hc => isAscii_of_isAsciiAlnum (hLower c hc),
    lower_eq_map fun c hc => isAscii_of_isAsciiAlnum (h c hc), List.map_map]
  exact List.map_congr_left fun c _ => asciiLower_asciiLower c

end StyleScaffold.Text
