import StyleScaffold.Text.Basic

/-!
# Hexadecimal digits

Numbers are written with lower-case hexadecimal digits, padded with zeros to a least width, and
single digits of either case are read back.
-/

namespace StyleScaffold.Text

/-- A number in lower-case hexadecimal, with at least `width` digits. -/
def hex (width n : Nat) : Text :=
  let digits : Text := (Nat.toDigits 16 n).map .char
  copies (width - digits.length) '0' ++ digits

/-- The value of a hexadecimal digit of either case. -/
def hexValue? (c : CodePoint) : Option Nat :=
  if '0' ≤ c ∧ c ≤ '9' then some (c.toNat - 48)
  else if 'a' ≤ c ∧ c ≤ 'f' then some (c.toNat - 87)
  else if 'A' ≤ c ∧ c ≤ 'F' then some (c.toNat - 55)
  else none

def isHexDigit (c : CodePoint) : Bool := (hexValue? c).isSome

/-- The number that a run of hexadecimal digits writes. -/
def hexNumber? (s : Text) : Option Nat :=
  s.foldlM (fun n c => (hexValue? c).map (16 * n + ·)) 0

end StyleScaffold.Text
