/-!
# Code points

A text may come from outside with half of a surrogate pair in it. Such a half is a code point
but no character, so texts are made of code points: the characters, and the surrogates. Every
character counts as a code point.
-/

namespace StyleScaffold

/-- A code point of Unicode: a character, or a surrogate by its place among the 2048 of them. -/
inductive CodePoint where
  | char (c : Char)
  | surrogate (place : Fin 0x800)
  deriving DecidableEq

instance : Coe Char CodePoint := ⟨.char⟩

namespace CodePoint

instance : Inhabited CodePoint := ⟨.char default⟩

/-- The first surrogate. -/
def firstSurrogate : Nat := 0xD800

/-- The number of a code point. -/
def toNat : CodePoint → Nat
  | .char c => c.toNat
  | .surrogate place => firstSurrogate + place

/-- The code point with a number; numbers that have none give the replacement character. -/
def ofNat (n : Nat) : CodePoint :=
  if h : firstSurrogate ≤ n ∧ n - firstSurrogate < 0x800 then .surrogate ⟨n - firstSurrogate, h.2⟩
  else if n.isValidChar then .char (Char.ofNat n)
  else .char '\uFFFD'

/-- The character of a code point, the replacement character for a surrogate. -/
def toChar : CodePoint → Char
  | .char c => c
  | .surrogate _ => '\uFFFD'

/-- Code points are ordered by their numbers. -/
instance : LE CodePoint := ⟨fun a b => a.toNat ≤ b.toNat⟩

instance (a b : CodePoint) : Decidable (a ≤ b) := inferInstanceAs (Decidable (a.toNat ≤ b.toNat))

/-- Whether the code point is the first half of a surrogate pair. -/
def isHighHalf (c : CodePoint) : Bool := 0xD800 ≤ c.toNat && c.toNat < 0xDC00

/-- Whether the code point is the second half of a surrogate pair. -/
def isLowHalf (c : CodePoint) : Bool := 0xDC00 ≤ c.toNat && c.toNat < 0xE000

/-- The character of a surrogate pair. -/
def ofHalves (high low : CodePoint) : CodePoint :=
  ofNat (0x10000 + 0x400 * (high.toNat - 0xD800) + (low.toNat - 0xDC00))

@[simp] theorem toNat_char (c : Char) : (char c).toNat = c.toNat := rfl

/-- No character has the number of a surrogate. -/
theorem toNat_char_not_surrogate (c : Char) :
    ¬ (firstSurrogate ≤ c.toNat ∧ c.toNat - firstSurrogate < 0x800) := by
  have hValid : c.toNat.isValidChar := c.valid
  simp only [Nat.isValidChar] at hValid
  unfold firstSurrogate
  omega

/-- The number of a code point gives it back. -/
@[simp] theorem ofNat_toNat (c : CodePoint) : ofNat c.toNat = c := by
  cases c with
  | char c =>
    have hValid : c.toNat.isValidChar := c.valid
    rw [toNat_char, ofNat, dif_neg (toNat_char_not_surrogate c), if_pos hValid, Char.ofNat_toNat]
  | surrogate place =>
    have hPlace : firstSurrogate + place.val - firstSurrogate = place.val := by omega
    unfold ofNat
    rw [dif_pos (by simp [toNat])]
    simp [toNat, hPlace]

/-- Code points with one number are one code point. -/
theorem eq_of_toNat_eq {a b : CodePoint} (h : a.toNat = b.toNat) : a = b := by
  rw [← ofNat_toNat a, h, ofNat_toNat]

end CodePoint

end StyleScaffold
