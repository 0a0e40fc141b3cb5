import StyleScaffold.Number.Binary64
import StyleScaffold.Text.Ascii
import StyleScaffold.Text.Blank
import StyleScaffold.Text.Digit

/-!
# Numbers in texts

A number literal may have spaces around it, a sign, and underscores between digits; its digits
may come from any script. A floating-point literal has a whole part, a fraction or both, and
perhaps an exponent; the words for infinity and for the number that is none are read in any
case. An integer literal has digits only, and at most 4300 of them.

A numeral is the plain form that stands in front of a unit: a whole part and perhaps a fraction.
-/

namespace StyleScaffold

open Text

namespace Literal

/-- The spaces that may surround a literal: the blanks without the information separators. -/
def isSpace (c : CodePoint) : Bool := isBlank c && ! (0x1C ≤ c.toNat && c.toNat ≤ 0x1F)

def bare (s : Text) : Text := trimClass isSpace s

/-- The text without its underscores, each of which must stand between two digits. -/
def ungroup? (behindDigit : Bool) : Text → Option Text
  | [] => some []
  | '_' :: c :: rest =>
    if behindDigit && isDigit c then (ungroup? true rest).map (c :: ·) else none
  | c :: rest => if c = '_' then none else (ungroup? (isDigit c) rest).map (c :: ·)

/-- Whether a leading minus was read, and the text behind the sign. -/
def sign : Text → Bool × Text
  | '-' :: rest => (true, rest)
  | '+' :: rest => (false, rest)
  | s => (false, s)

/-- The text without leading zeros. -/
def dropZeros (s : Text) : Text := s.dropWhile fun c => digitValue? c = some 0

/-- The exponent at the end of a literal, zero when there is none. -/
def exponent? : Text → Option Int
  | [] => some 0
  | e :: rest =>
    let (negative, digits) := sign rest
    if (e = 'e' || e = 'E') && ! digits.isEmpty && digits.all isDigit then
      some (Binary64.signed negative (digitsValue digits))
    else none

/-- The fraction in front of the exponent, and the rest. -/
def fraction : Text → Text × Text
  | '.' :: rest => run isDigit rest
  | s => ([], s)

/-- The number that an unsigned literal in digits writes. -/
def decimal? (negative : Bool) (s : Text) : Option Binary64 :=
  let (whole, rest) := run isDigit s
  let (part, rest) := fraction rest
  if whole.isEmpty && part.isEmpty then none
  else
    (exponent? rest).map fun e =>
      let digits := dropZeros (whole ++ part)
      .ofDecimal negative (digitsValue digits) digits.length (e - part.length)

/-- The number that an unsigned literal writes. -/
def unsigned? (negative : Bool) (s : Text) : Option Binary64 :=
  let word := s.map asciiLower
  if word = "inf" ∨ word = "infinity" then some (.infinite negative)
  else if word = "nan" then some .nan
  else decimal? negative s

/-- The floating-point number that a text writes. -/
def float? (s : Text) : Option Binary64 :=
  (ungroup? false (bare s)).bind fun t => unsigned? (sign t).1 (sign t).2

/-- The most digits that an integer literal may have. -/
def maxIntegerDigits : Nat := 4300

/-- The least number that has too many digits. -/
@[irreducible] def integerLimit : Nat := 10 ^ maxIntegerDigits

/-- The integer that a text writes. -/
def integer? (s : Text) : Option Int :=
  (ungroup? false (bare s)).bind fun t =>
    let (negative, digits) := sign t
    if ! digits.isEmpty && digits.all isDigit && digits.length ≤ maxIntegerDigits then
      some (Binary64.signed negative (digitsValue digits))
    else none

end Literal

/-- Digits, and perhaps a point with digits behind it. -/
structure Numeral where
  whole : Text
  fraction : Option Text
  deriving DecidableEq

namespace Numeral

/-- The numeral as it was written. -/
def text (n : Numeral) : Text :=
  match n.fraction with
  | none => n.whole
  | some part => n.whole ++ "." ++ part

/-- The nearest floating-point number. -/
def value (n : Numeral) : Binary64 :=
  let part := n.fraction.getD []
  .ofRatio false (digitsValue (n.whole ++ part)) (10 ^ part.length)

/-- The longest numeral at the start of a text, and the rest. -/
def read? (s : Text) : Option (Numeral × Text) :=
  (run? isDigit s).map fun (whole, rest) =>
    match rest with
    | '.' :: tail =>
      match run? isDigit tail with
      | some (part, rest) => (⟨whole, some part⟩, rest)
      | none => (⟨whole, none⟩, '.' :: tail)
    | _ => (⟨whole, none⟩, rest)

end Numeral

end StyleScaffold
