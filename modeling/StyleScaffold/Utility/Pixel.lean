import StyleScaffold.Number.Literal
import StyleScaffold.Number.Shortest
import StyleScaffold.Text.Digit

/-!
# Pixel lengths

A pixel length is a numeral with `px` behind it. On the numbered scale a length is a quarter of
its pixels, where that is a whole number; any other length keeps its text in brackets. On a
ladder a length takes the label of the first step that is not below it.
-/

namespace StyleScaffold

open Text

/-- Steps in ascending order with their labels, and the label above all of them. -/
structure Ladder where
  steps : List (Nat × Text)
  largest : Text

namespace Ladder

/-- The label of the first step that is at least the number. -/
def label (ladder : Ladder) (x : Binary64) : Text :=
  match ladder.steps.find? fun step => x.atMost step.1 with
  | some step => step.2
  | none => ladder.largest

end Ladder

namespace Pixel

/-- A pixel length at the start of a text. -/
def read? (s : Text) : Option Numeral := do
  let (numeral, rest) ← Numeral.read? s
  if startsWith "px" rest then some numeral else none

/-- The first pixel length in a text. -/
def first? (s : Text) : Option Numeral := firstMatch read? s

/-- A class with a value of its own in brackets. -/
def bracketed (stem value : Text) : Text := stem ++ "-[" ++ value ++ "]"

/-- A class for a number of pixels as it is written. -/
def literalClass (stem pixels : Text) : Text := bracketed stem (pixels ++ "px")

/-- The class of a length on the numbered scale, given its text and its value. -/
def scaleClass (stem pixels : Text) (value : Binary64) : Except NumberFault Text :=
  let step := value.dividedBy 4
  match step.whole? with
  | some n => .ok (stem ++ "-" ++ ofInt n)
  | none => do
    let _ ← step.truncate?
    return literalClass stem pixels

/-- The class on the numbered scale of a text that writes a number. -/
def scaleClassOfText (stem pixels : Text) : Except NumberFault Text :=
  match Literal.float? pixels with
  | some value => scaleClass stem pixels value
  | none => .error .notANumber

end Pixel

end StyleScaffold
