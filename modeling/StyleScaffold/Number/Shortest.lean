import StyleScaffold.Number.Binary64
import StyleScaffold.Text.Digit

/-!
# Decimal texts of floating-point numbers

Two texts are written. The shortest text has the fewest digits that read back as the number,
and of the texts with so few digits the one nearest to it. The rounded text has six significant
digits with trailing zeros dropped.

Both find a decimal `digits · 10^exponent` by exact arithmetic and lay it out in one way: with a
point in place for moderate exponents, and otherwise with one digit in front of the point and
the exponent behind an `e`, with its sign and at least two digits.
-/

namespace StyleScaffold

/-- The number `digits · 10^exponent`. -/
structure Decimal where
  digits : Nat
  exponent : Int
  deriving DecidableEq, Repr

/-- How a decimal is laid out. -/
structure DecimalLayout where
  /-- The least decimal exponent of a leading digit that is written behind the `e`. -/
  scientificFrom : Int
  /-- Whether a whole number keeps a point and a zero. -/
  keepsPoint : Bool

namespace Decimal

open Text

/-- Drops up to `fuel` trailing zeros. -/
def dropTrailingZeros : (fuel : Nat) → Decimal → Decimal
  | 0, d => d
  | fuel + 1, d =>
    if d.digits ≠ 0 ∧ d.digits % 10 = 0 then dropTrailingZeros fuel ⟨d.digits / 10, d.exponent + 1⟩
    else d

/-- The same number without trailing zeros in its digits. -/
def normal (d : Decimal) : Decimal := dropTrailingZeros (ofNat d.digits).length d

/-- The exponent of the leading digit. -/
def leadingExponent (d : Decimal) : Int := (ofNat d.digits).length + d.exponent - 1

/-- An exponent behind the `e`. -/
def exponentText (e : Int) : Text :=
  let digits := ofNat e.natAbs
  let sign : Text := if e < 0 then "-" else "+"
  sign ++ copies (2 - digits.length) '0' ++ digits

/-- Digits with a point in place. -/
def positional (layout : DecimalLayout) (d : Decimal) : Text :=
  let digits := ofNat d.digits
  let tail : Text := if layout.keepsPoint then ".0" else []
  if 0 ≤ d.exponent then digits ++ copies d.exponent.toNat '0' ++ tail
  else
    let places := (-d.exponent).toNat
    if places < digits.length then
      digits.take (digits.length - places) ++ "." ++ digits.drop (digits.length - places)
    else "0." ++ copies (places - digits.length) '0' ++ digits

/-- One digit, a point when more follow, and the exponent. -/
def scientific (d : Decimal) : Text :=
  let mantissa : Text :=
    match ofNat d.digits with
    | [] => []
    | [c] => [c]
    | c :: more => c :: '.' :: more
  mantissa ++ "e" ++ exponentText d.leadingExponent

/-- The text of a decimal without trailing zeros. -/
def layOut (layout : DecimalLayout) (d : Decimal) : Text :=
  if -4 ≤ d.leadingExponent ∧ d.leadingExponent < layout.scientificFrom then
    positional layout d
  else scientific d

end Decimal

namespace Binary64

open Text

/-- The quotient `num / den` in steps of `10^exponent`, as a quotient again. -/
def inSteps (exponent : Int) (num den : Nat) : Nat × Nat :=
  if 0 ≤ exponent then (num, den * 10 ^ exponent.toNat)
  else (num * 10 ^ (-exponent).toNat, den)

/-- The exponent of the leading decimal digit of a positive number of units. -/
def leadingExponent (units : Nat) : Int :=
  (ofNat (units * 10 ^ 400 / unitsPerOne)).length - 401

/-- A number of units rounded to a count of digits, of which the leading one has the exponent
`lead`; halves go to the even. -/
def roundedFrom (lead : Int) (count units : Nat) : Decimal :=
  let exponent := lead - count + 1
  let (num, den) := inSteps exponent units unitsPerOne
  (Decimal.mk (roundHalfEven num den) exponent).normal

/-- A positive number of units rounded to a count of significant digits. -/
def significant (count units : Nat) : Decimal := roundedFrom (leadingExponent units) count units

/-- Whether a quotient of units is among the numbers that round to `units`: those within half a
grid step, or a quarter step below a power of two, where the grid is twice as fine. The ends
are among them when the significand is even. Both sides are compared in half units. -/
def readsBack (units : Nat) (num den : Nat) : Bool :=
  let step := gridStep units
  let below := if units = 2 ^ units.log2 ∧ 1 < step then step / 2 else step
  let even := units / step % 2 == 0
  let low := (2 * units - below) * den
  let high := (2 * units + step) * den
  if even then low ≤ 2 * num && 2 * num ≤ high else low < 2 * num && 2 * num < high

/-- The decimals of `count` digits next to the number that read back as it: the nearer one. -/
def shortestWith? (units count : Nat) : Option Decimal :=
  let exponent := leadingExponent units - count + 1
  let (num, den) := inSteps exponent units unitsPerOne
  let good (digits : Nat) : Bool :=
    if 0 ≤ exponent then readsBack units (digits * 10 ^ exponent.toNat * unitsPerOne) 1
    else readsBack units (digits * unitsPerOne) (10 ^ (-exponent).toNat)
  let floor := num / den
  let near := roundHalfEven num den
  let far := if near = floor then floor + 1 else floor
  if good near then some ⟨near, exponent⟩ else if good far then some ⟨far, exponent⟩ else none

/-- The shortest decimal that reads back as a positive number of units. Seventeen digits always
suffice. -/
def shortest (units : Nat) : Decimal :=
  let found := (List.range 17).firstM fun i => shortestWith? units (i + 1)
  (found.getD (significant 17 units)).normal

/-- The text of a number with the decimal found for its units. -/
def textWith (decimal : Nat → Decimal) (layout : DecimalLayout) : Binary64 → Text
  | .finite negative units _ =>
    let body := if units = 0 then Decimal.mk 0 0 else decimal units
    let sign : Text := if negative then "-" else []
    sign ++ body.layOut layout
  | .infinite negative => if negative then "-inf" else "inf"
  | .nan => "nan"

/-- The shortest text: positional below 10^16, and always with a point or an exponent. -/
def text (x : Binary64) : Text := x.textWith shortest ⟨16, true⟩

/-- The text with six significant digits: positional below 10^6, without a needless point. -/
def rounded (x : Binary64) : Text := x.textWith (significant 6) ⟨6, false⟩

end Binary64

end StyleScaffold
