import StyleScaffold.Text.Basic

/-!
# Decimal digits

The decimal digits of every script come in rows of ten, from zero to nine. The table lists the
zeros; a digit's value is its distance from the zero of its row.
-/

namespace StyleScaffold.Text

/-- The zeros of the decimal digit rows. -/
def digitZeros : List Nat :=
  [0x30, 0x660, 0x6F0, 0x7C0, 0x966, 0x9E6, 0xA66, 0xAE6, 0xB66, 0xBE6, 0xC66, 0xCE6, 0xD66,
   0xDE6, 0xE50, 0xED0, 0xF20, 0x1040, 0x1090, 0x17E0, 0x1810, 0x1946, 0x19D0, 0x1A80, 0x1A90,
   0x1B50, 0x1BB0, 0x1C40, 0x1C50, 0xA620, 0xA8D0, 0xA900, 0xA9D0, 0xA9F0, 0xAA50, 0xABF0,
   0xFF10, 0x104A0, 0x10D30, 0x11066, 0x110F0, 0x11136, 0x111D0, 0x112F0, 0x11450, 0x114D0,
   0x11650, 0x116C0, 0x11730, 0x118E0, 0x11950, 0x11C50, 0x11D50, 0x11DA0, 0x16A60, 0x16AC0,
   0x16B50, 0x1D7CE, 0x1D7D8, 0x1D7E2, 0x1D7EC, 0x1D7F6, 0x1E140, 0x1E2F0, 0x1E950, 0x1FBF0]

/-- The value of a decimal digit, of whatever script. -/
def digitValue? (c : CodePoint) : Option Nat :=
  (digitZeros.find? fun row => row ≤ c.toNat && c.toNat < row + 10).map (c.toNat - ·)

def isDigit (c : CodePoint) : Bool := (digitValue? c).isSome

/-- The number that a run of digits writes; other characters count as zero. -/
def digitsValue (s : Text) : Nat := s.foldl (fun n c => 10 * n + (digitValue? c).getD 0) 0

/-- The digits of a natural number, without leading zeros. -/
def ofNat (n : Nat) : Text := (Nat.toDigits 10 n).map .char

/-- An integer with a leading minus when it is negative. -/
def ofInt : Int → Text
  | .ofNat n => ofNat n
  | .negSucc n => '-' :: ofNat (n + 1)

/-- A digit's value is below ten. -/
theorem digitValue?_lt {c : CodePoint} {v : Nat} (h : digitValue? c = some v) : v < 10 := by
  simp only [digitValue?, Option.map_eq_some_iff] at h
  obtain ⟨row, hFind, rfl⟩ := h
  have := List.find?_some hFind
  simp only [Bool.and_eq_true, decide_eq_true_eq] at this
  omega

theorem digitsValue_lt (s : Text) : digitsValue s < 10 ^ s.length := by
  have hFold : ∀ (s : Text) (n : Nat),
      s.foldl (fun n c => 10 * n + (digitValue? c).getD 0) n < (n + 1) * 10 ^ s.length := by
    intro s
    induction s with
    | nil => simp
    | cons c s ih =>
      intro n
      have hDigit : (digitValue? c).getD 0 < 10 := by
        cases hValue : digitValue? c with
        | none => decide
        | some v => exact digitValue?_lt hValue
      rw [List.foldl_cons, List.length_cons, Nat.pow_succ, Nat.mul_comm _ 10, ← Nat.mul_assoc]
      refine Nat.lt_of_lt_of_le (ih _) (Nat.mul_le_mul_right _ ?_)
      omega
  simpa [digitsValue] using hFold s 0

end StyleScaffold.Text
