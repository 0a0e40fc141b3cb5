import StyleScaffold.Proofs.Text.LowerCase
import StyleScaffold.Proofs.Text.Plain
import StyleScaffold.Text.Hex

/-!
# Hexadecimal numbers

A number that is written with hexadecimal digits is read back (`hexNumber?_hex`), and it has the
width it is written for if it fits (`length_hex`). It is written in lower case (`mem_hex`), and the
case of a digit makes no difference for reading (`hexValue?_asciiUpper`).
-/

namespace StyleScaffold.Text

/-! ## Digits -/

theorem hexValue?_digitChar : ∀ d < 16, hexValue? (.char (Nat.digitChar d)) = some d := by decide

/-- The digits of either case are three ranges of ASCII. -/
theorem hexValue?_eq_some_iff {c : CodePoint} {v : Nat} :
    hexValue? c = some v ↔
      (48 ≤ c.toNat ∧ c.toNat ≤ 57 ∧ v = c.toNat - 48) ∨
        (97 ≤ c.toNat ∧ c.toNat ≤ 102 ∧ v = c.toNat - 87) ∨
          (65 ≤ c.toNat ∧ c.toNat ≤ 70 ∧ v = c.toNat - 55) := by
  have hLe : ∀ a b : CodePoint, a ≤ b ↔ a.toNat ≤ b.toNat := fun a b => Iff.rfl
  have hZero : ('0' : CodePoint).toNat = 48 := rfl
  have hNine : ('9' : CodePoint).toNat = 57 := rfl
  have hSmallA : ('a' : CodePoint).toNat = 97 := rfl
  have hSmallF : ('f' : CodePoint).toNat = 102 := rfl
  have hA : ('A' : CodePoint).toNat = 65 := rfl
  have hF : ('F' : CodePoint).toNat = 70 := rfl
  unfold hexValue?
  simp only [hLe, hZero, hNine, hSmallA, hSmallF, hA, hF]
  split
  · rw [Option.some.injEq]
    omega
  · split
    · rw [Option.some.injEq]
      omega
    · split
      · rw [Option.some.injEq]
        omega
      · simp only [reduceCtorEq, false_iff]
        omega

theorem isAscii_of_hexValue? {c : CodePoint} {v : Nat} (h : hexValue? c = some v) :
    isAscii c = true := by
  rw [hexValue?_eq_some_iff] at h
  rw [isAscii, decide_eq_true_eq]
  omega

theorem hexValue?_asciiUpper {c : CodePoint} {v : Nat} (h : hexValue? c = some v) :
    hexValue? (asciiUpper c) = some v := by
  rw [hexValue?_eq_some_iff] at h ⊢
  have hSmall : ('a' ≤ c ∧ c ≤ 'z') ↔ 97 ≤ c.toNat ∧ c.toNat ≤ 122 := Iff.rfl
  rw [asciiUpper]
  split
  · rename_i hc
    rw [hSmall] at hc
    rw [toNat_ofNat (by omega)]
    omega
  · exact h

/-! ## Numbers -/

theorem hexNumber?_concat (s : Text) (c : CodePoint) :
    hexNumber? (s ++ [c]) = (hexNumber? s).bind fun n => (hexValue? c).map (16 * n + ·) := by
  rw [hexNumber?, List.foldlM_append, ← hexNumber?]
  simp [bind]

theorem hexNumber?_pair {a b : CodePoint} {n : Nat} (h : hexNumber? [a, b] = some n) :
    ∃ high low, hexValue? a = some high ∧ hexValue? b = some low ∧ 16 * high + low = n := by
  have hFirst : hexNumber? [a] = hexValue? a := by
    rw [← List.nil_append [a], hexNumber?_concat]
    simp [hexNumber?]
  rw [← List.singleton_append, hexNumber?_concat, hFirst, Option.bind_eq_some_iff] at h
  obtain ⟨high, hHigh, hLow⟩ := h
  obtain ⟨low, hLow, hSum⟩ := Option.map_eq_some_iff.1 hLow
  exact ⟨high, low, hHigh, hLow, hSum⟩

theorem hexNumber?_copies_append (k : Nat) (s : Text) :
    hexNumber? (copies k '0' ++ s) = hexNumber? s := by
  induction k with
  | zero => rfl
  | succ k ih => exact ih

theorem hexNumber?_toDigits (n : Nat) :
    hexNumber? ((Nat.toDigits 16 n).map .char) = some n := by
  induction n using Nat.strongRecOn with
  | ind n ih =>
    by_cases hn : n < 16
    · rw [Nat.toDigits_of_lt_base hn, List.map_singleton, ← List.nil_append [_], hexNumber?_concat,
        hexValue?_digitChar n hn]
      simp [hexNumber?]
    · have hLast : n % 16 < 16 := Nat.mod_lt n (by decide)
      rw [Nat.toDigits_of_base_le (by decide) (by omega), List.map_append, List.map_singleton,
        hexNumber?_concat, ih (n / 16) (by omega), hexValue?_digitChar (n % 16) hLast,
        Option.bind_some, Option.map_some, Nat.div_add_mod]

theorem hexNumber?_hex (width n : Nat) : hexNumber? (hex width n) = some n := by
  rw [hex, hexNumber?_copies_append, hexNumber?_toDigits]

theorem length_hex {width n : Nat} (hWidth : 0 < width) (h : n < 16 ^ width) :
    (hex width n).length = width := by
  have hDigits := (Nat.length_toDigits_le_iff (b := 16) (by decide) hWidth).2 h
  simp only [hex, copies, List.length_append, List.length_replicate, List.length_map]
  omega

theorem mem_hex {width n : Nat} {c : CodePoint} (h : c ∈ hex width n) :
    c ∈ ofString "0123456789abcdef" := by
  have hDigit : ∀ d < 16, CodePoint.char (Nat.digitChar d) ∈ ofString "0123456789abcdef" := by
    decide
  rcases List.mem_append.1 h with hZero | hRest
  · rw [List.eq_of_mem_replicate hZero]
    decide
  · exact forall_mem_toDigits (by decide) hDigit n c hRest

end StyleScaffold.Text
