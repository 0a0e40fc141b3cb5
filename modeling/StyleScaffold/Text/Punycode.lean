import StyleScaffold.Text.Ascii

/-!
# Punycode

A text is written in ASCII as its characters of ASCII, a hyphen, and numbers that say where the
others go. The others are put in one by one, the smaller code points first. A number counts the
steps from the place of the last one to that of the next: one step passes a character, or goes
back to the front with the next code point.

A number is a run of digits of base 36, the lowest first. Each place has a threshold, and a
digit below it ends the number; the thresholds move with a bias, so that numbers of the size of
the last one stay short.
-/

namespace StyleScaffold.Text.Punycode

/-! ## Digits and thresholds -/

/-- The digit with a value below 36. -/
def digit (value : Nat) : CodePoint := .ofNat (if value < 26 then 97 + value else 22 + value)

/-- The value of a digit. -/
def digitValue? (c : CodePoint) : Option Nat :=
  if isAsciiDigit c then some (c.toNat - 22)
  else if isAsciiLetter c then some ((asciiLower c).toNat - 97)
  else none

def firstBias : Nat := 72

/-- The threshold of a place. -/
def threshold (bias place : Nat) : Nat := max 1 (min 26 (36 * place - bias))

/-- The bias that a delta asks for, with that of the places that it takes. -/
def settledBias (bias delta : Nat) : Nat :=
  if 455 < delta then settledBias (bias + 36) (delta / 35) else bias + 36 * delta / (delta + 38)
termination_by delta
decreasing_by exact Nat.div_lt_self (by omega) (by omega)

/-- The bias after a number, with which a text got a length. -/
def nextBias (isFirst : Bool) (delta length : Nat) : Nat :=
  let damped := if isFirst then delta / 700 else delta / 2
  settledBias 0 (damped + damped / length)

/-! ## Numbers -/

theorem threshold_bounds (bias place : Nat) :
    1 ≤ threshold bias place ∧ threshold bias place ≤ 26 := by
  unfold threshold
  omega

/-- The digits of a number from a place on. -/
def numberText (bias place n : Nat) : Text :=
  let t := threshold bias place
  if n < t then [digit n]
  else digit (t + (n - t) % (36 - t)) :: numberText bias (place + 1) ((n - t) / (36 - t))
termination_by n
decreasing_by
  have hBounds := threshold_bounds bias place
  have := Nat.div_le_self (n - threshold bias place) (36 - threshold bias place)
  omega

/-- The number whose digits stand at the start of a text, and the rest. A digit at the place has
a weight. -/
def number? (bias place weight : Nat) : Text → Option (Nat × Text)
  | [] => none
  | c :: rest => do
    let value ← digitValue? c
    let t := threshold bias place
    if value < t then return (value * weight, rest)
    let (more, rest) ← number? bias (place + 1) (weight * (36 - t)) rest
    return (value * weight + more, rest)

/-- The numbers as text, where the first of them makes a text longer than `length`. -/
def numbersText (isFirst : Bool) (bias length : Nat) : List Nat → Text
  | [] => []
  | n :: rest =>
    numberText bias 1 n ++
      numbersText false (nextBias isFirst n (length + 1)) (length + 1) rest

/-- The numbers that a text writes. Each takes at least one digit. -/
def numbers? (isFirst : Bool) (bias length : Nat) :
    (fuel : Nat) → Text → Option (List Nat)
  | _, [] => some []
  | 0, _ => none
  | fuel + 1, s => do
    let (n, rest) ← number? bias 1 1 s
    return n :: (← numbers? false (nextBias isFirst n (length + 1)) (length + 1) fuel rest)

/-! ## Insertions -/

/-- The insertions that make a text from its characters of ASCII: the code point of each, and its
place among those that are there by then. -/
def insertions (s : Text) : List (Nat × Nat) :=
  let points := ((s.filter (! isAscii ·)).map CodePoint.toNat).eraseDups.mergeSort
  points.flatMap fun n =>
    (s.zipIdx.filter (·.1.toNat = n)).map fun (_, i) => (n, (s.take i).countP (·.toNat ≤ n))

/-- The steps to each insertion, from a code point and a place in a text with a length. -/
def steps (point place length : Nat) : List (Nat × Nat) → List Nat
  | [] => []
  | (n, i) :: rest =>
    ((n - point) * (length + 1) + i - place) :: steps n (i + 1) (length + 1) rest

/-- The text after insertions at the ends of steps, if all of them are code points. -/
def inserted? (point place : Nat) (s : Text) : List Nat → Option Text
  | [] => some s
  | n :: rest =>
    let reached := place + n
    let point := point + reached / (s.length + 1)
    let place := reached % (s.length + 1)
    if point < 0x110000 then inserted? point (place + 1) (s.insertIdx place (.ofNat point)) rest
    else none

/-- The text in ASCII. -/
def encode (s : Text) : Text :=
  let plain : Text := s.filter isAscii
  let front : Text := if plain.isEmpty then [] else plain ++ "-"
  front ++ numbersText true firstBias plain.length (steps 0x80 0 plain.length (insertions s))

/-- The text that a text in ASCII writes. -/
def decode? (s : Text) : Option Text :=
  let written := (cut '-' s).getLast?.getD []
  let plain := s.take (s.length - written.length - 1)
  (numbers? true firstBias plain.length written.length written).bind (inserted? 0x80 0 plain)

end StyleScaffold.Text.Punycode
