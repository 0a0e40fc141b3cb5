import StyleScaffold.Proofs.Number.Numeral
import StyleScaffold.Proofs.Text.Plain
import StyleScaffold.Proofs.Utility.Overflow

/-!
# The exact number of a numeral

A numeral writes a rational number (`Numeral.number`), whatever floating-point number is nearest to
it. The reader takes a numeral whole (`Numeral.read?_text_append`), and it reads back the number
that was printed in digits (`digitsValue_ofNat`).
-/

namespace StyleScaffold

open Text

/-! ## Printed numbers -/

namespace Text

theorem digitsValue_concat (s : Text) (c : CodePoint) :
    digitsValue (s ++ [c]) = 10 * digitsValue s + (digitValue? c).getD 0 :=
  List.foldl_append

/-- A printed number is read back, and nothing but digits is printed. -/
theorem digitsValue_ofNat (n : Nat) :
    (∀ c ∈ ofNat n, isDigit c = true) ∧ digitsValue (ofNat n) = n := by
  have hDigit : ∀ d < 10, isDigit (.char (Nat.digitChar d)) = true ∧
      (digitValue? (.char (Nat.digitChar d))).getD 0 = d := by decide
  induction n using Nat.strongRecOn with
  | ind n ih =>
    by_cases hn : n < 10
    · rw [ofNat, Nat.toDigits_of_lt_base hn]
      simp [digitsValue, hDigit n hn]
    · obtain ⟨hAll, hValue⟩ := ih (n / 10) (by omega)
      obtain ⟨hLast, hLastValue⟩ := hDigit (n % 10) (Nat.mod_lt n (by decide))
      rw [ofNat, Nat.toDigits_of_base_le (by decide) (by omega), List.map_append, List.map_singleton,
        digitsValue_concat, hLastValue, ← ofNat, hValue]
      refine ⟨?_, by omega⟩
      rw [List.forall_mem_append]
      exact ⟨hAll, List.forall_mem_singleton.2 hLast⟩

end Text

namespace Numeral

/-- There are digits in front of the point, and behind it if there is one. -/
structure IsWritten (n : Numeral) : Prop where
  whole : n.whole ≠ [] ∧ ∀ c ∈ n.whole, isDigit c = true
  fraction : ∀ part ∈ n.fraction, part ≠ [] ∧ ∀ c ∈ part, isDigit c = true

/-- The number that the numeral writes. -/
def number (n : Numeral) : Rat :=
  (digitsValue (n.whole ++ n.fraction.getD []) : Rat) /
    ((10 ^ (n.fraction.getD []).length : Nat) : Rat)

variable {n : Numeral}

/-- A numeral in front of anything but a digit and a point is read whole. -/
theorem read?_text_append (h : n.IsWritten) {rest : Text}
    (hRest : ∀ c ∈ rest.head?, isDigit c = false ∧ c ≠ '.') :
    read? (n.text ++ rest) = some (n, rest) := by
  obtain ⟨whole, fraction⟩ := n
  obtain ⟨⟨hWhole, hDigits⟩, hFraction⟩ := h
  cases fraction with
  | none =>
    have hRun := run?_append hWhole hDigits fun c hc => (hRest c hc).1
    rw [read?, text, hRun, Option.map_some]
    dsimp only
    split
    · rename_i tail
      exact absurd rfl (hRest '.' rfl).2
    · rfl
  | some part =>
    obtain ⟨hPart, hPartDigits⟩ := hFraction part rfl
    have hText : text ⟨whole, some part⟩ ++ rest = whole ++ .char '.' :: (part ++ rest) := by
      simp [text, ofString]
    have hPoint : ∀ c ∈ (CodePoint.char '.' :: (part ++ rest)).head?, isDigit c = false := by
      simpa using (by decide : isDigit '.' = false)
    rw [hText, read?, run?_append hWhole hDigits hPoint, Option.map_some]
    simp only [run?_append hPart hPartDigits fun c hc => (hRest c hc).1]

/-! ## Bounds -/

theorem tenPow_pos (k : Nat) : (0 : Rat) < ((10 ^ k : Nat) : Rat) := by
  exact_mod_cast Nat.pow_pos (by decide : 0 < 10)

theorem number_nonneg (n : Numeral) : 0 ≤ n.number := by
  rw [← Rat.not_lt, number, Rat.div_lt_iff (tenPow_pos _), Rat.zero_mul, Rat.not_lt]
  exact Rat.natCast_nonneg

theorem number_eq_zero_iff :
    n.number = 0 ↔ digitsValue (n.whole ++ n.fraction.getD []) = 0 := by
  have hPos := tenPow_pos (n.fraction.getD []).length
  rw [number, ← Rat.natCast_eq_zero_iff]
  constructor <;> intro h <;> grind

/-- Without a fraction, the number is whole. -/
theorem number_eq_of_none {whole : Text} : number ⟨whole, none⟩ = (digitsValue whole : Rat) := by
  have hOne : ((10 ^ 0 : Nat) : Rat) = 1 := rfl
  rw [number, Option.getD_none, List.append_nil, List.length_nil, hOne]
  grind

theorem number_eq_of_not_mem (h : .char '.' ∉ n.text) : n.number = (digitsValue n.text : Rat) := by
  obtain ⟨whole, fraction⟩ := n
  cases fraction with
  | none => exact number_eq_of_none
  | some part => exact absurd (by simp [text, ofString]) h

/-- Without digits in front of the point, the number is below one. -/
theorem number_lt_one {fraction : Option Text} : number ⟨[], fraction⟩ < 1 := by
  rw [number, Rat.div_lt_iff (tenPow_pos _), Rat.one_mul, Rat.natCast_lt_natCast]
  exact digitsValue_lt _

end Numeral

end StyleScaffold
