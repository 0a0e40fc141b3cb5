import StyleScaffold.Json.Basic
import StyleScaffold.Number.Literal
import StyleScaffold.Text.Encoding
import StyleScaffold.Text.Hex

/-!
# Reading JSON

The reader accepts the JSON grammar with the words `NaN`, `Infinity` and `-Infinity` beside it.
Whole numbers may have 4300 digits. A repeated field keeps its first place and its last value.
In texts, control characters must be escaped, and two escapes that form a surrogate pair are one
character; a surrogate without its partner stays alone.

Every step of the reader takes at least one character, so the length of the input bounds the
number of steps. How deep arrays and objects may stand inside each other is limited besides, and
a text that goes beyond it is told apart from one that is no JSON.
-/

namespace StyleScaffold.Json

open Text

/-- Drops the white space of the grammar. -/
def skip (s : Text) : Text := s.dropWhile fun c => c = ' ' || c = '\t' || c = '\n' || c = '\r'

/-- The character for the letter behind a backslash. -/
def escaped? (c : CodePoint) : Option CodePoint :=
  match c with
  | '"' => some '"'
  | '\\' => some '\\'
  | '/' => some '/'
  | 'b' => some '\x08'
  | 'f' => some '\x0c'
  | 'n' => some '\n'
  | 'r' => some '\r'
  | 't' => some '\t'
  | _ => none

/-- A code point of a text, written as itself or by its number. -/
inductive Piece where
  | plain (c : CodePoint)
  | numbered (c : CodePoint)

/-- The pieces up to the closing quote, and the rest. -/
def pieces : Text → Option (List Piece × Text)
  | [] => none
  | '"' :: rest => some ([], rest)
  | '\\' :: 'u' :: a :: b :: c :: d :: rest =>
    match hexNumber? [a, b, c, d], pieces rest with
    | some n, some (ps, rest) => some (.numbered (.ofNat n) :: ps, rest)
    | _, _ => none
  | '\\' :: c :: rest =>
    match escaped? c, pieces rest with
    | some c, some (ps, rest) => some (.plain c :: ps, rest)
    | _, _ => none
  | c :: rest =>
    if c.toNat < 0x20 || c = '\\' then none
    else (pieces rest).map fun (ps, rest) => (.plain c :: ps, rest)

/-- The text of the pieces. The numbers of both halves of a surrogate pair, one behind the other,
write one character. -/
def joinPieces : List Piece → Text
  | [] => []
  | .numbered high :: .numbered low :: rest =>
    if high.isHighHalf && low.isLowHalf then .ofHalves high low :: joinPieces rest
    else high :: joinPieces (.numbered low :: rest)
  | .numbered c :: rest => c :: joinPieces rest
  | .plain c :: rest => c :: joinPieces rest

/-- The text whose opening quote has been read, and the rest. -/
def stringBody (s : Text) : Option (Text × Text) :=
  (pieces s).map fun (ps, rest) => (joinPieces ps, rest)

/-- The fraction of a number with its point, empty when there is none, and the rest. -/
def fractionPart : Text → Text × Text
  | '.' :: rest =>
    match run? isAsciiDigit rest with
    | some (digits, rest) => ('.' :: digits, rest)
    | none => ([], '.' :: rest)
  | s => ([], s)

/-- The exponent of a number with its mark, empty when there is none, and the rest. -/
def exponentPart : Text → Text × Text
  | [] => ([], [])
  | e :: rest =>
    let (sign, tail) : Text × Text :=
      match rest with
      | '+' :: t => (['+'], t)
      | '-' :: t => (['-'], t)
      | t => ([], t)
    match (if e = 'e' || e = 'E' then run? isAsciiDigit tail else none) with
    | some (digits, tail) => (e :: sign ++ digits, tail)
    | none => ([], e :: rest)

/-- The whole part of a number: a zero, or digits that start with another one. -/
def wholePart : Text → Option (Text × Text)
  | '0' :: rest => some (['0'], rest)
  | s => run? isAsciiDigit s

/-- An unsigned number and the rest. -/
def number (negative : Bool) (s : Text) : Option (Json × Text) := do
  let (whole, rest) ← wholePart s
  let (fraction, rest) := fractionPart rest
  let (exponent, rest) := exponentPart rest
  if fraction.isEmpty && exponent.isEmpty then
    if whole.length ≤ Literal.maxIntegerDigits then
      some (.int (Binary64.signed negative (digitsValue whole)), rest)
    else none
  else
    let x ← Literal.decimal? negative (whole ++ fraction ++ exponent)
    some (.float x, rest)

/-- A word or a number, and the rest. -/
def scalar (s : Text) : Option (Json × Text) :=
  let words : List (Text × Json) :=
    [("null", .null), ("true", .bool true), ("false", .bool false), ("NaN", .float .nan),
      ("Infinity", .float (.infinite false)), ("-Infinity", .float (.infinite true))]
  match words.findSome? fun (word, v) => (strip? word s).map fun rest => (v, rest) with
  | some found => some found
  | none =>
    match s with
    | '-' :: rest => number true rest
    | s => number false s

/-- Why a text was not read. -/
inductive ParseFault where
  /-- The text does not follow the grammar. -/
  | malformed
  /-- There are too many arrays and objects inside each other. -/
  | tooDeep
  deriving DecidableEq, Repr

/-- What the grammar asks for. -/
def expect {α : Type} : Option α → Except ParseFault α
  | some a => .ok a
  | none => .error .malformed

mutual

/-- The value at the start of a text, and the rest. So many arrays and objects as there is room for
may stand inside each other, and one more is a fault as soon as it begins. -/
def value : (fuel room : Nat) → Text → Except ParseFault (Json × Text)
  | 0, _, _ => .error .malformed
  | fuel + 1, room, s =>
    match s, room with
    | '"' :: rest, _ => (expect (stringBody rest)).map fun (t, rest) => (.str t, rest)
    | '[' :: _, 0 => .error .tooDeep
    | '[' :: rest, room + 1 =>
      match skip rest with
      | ']' :: rest => .ok (.arr [], rest)
      | rest => (elements fuel room rest).map fun (items, rest) => (.arr items, rest)
    | '{' :: _, 0 => .error .tooDeep
    | '{' :: rest, room + 1 =>
      match skip rest with
      | '}' :: rest => .ok (.obj [], rest)
      | rest =>
        (members fuel room rest).map fun (fields, rest) =>
          (.obj (fields.foldl (fun fs (k, v) => putEntry k v fs) []), rest)
    | s, _ => expect (scalar s)

/-- The values up to the closing bracket of an array, and the rest. -/
def elements : (fuel room : Nat) → Text → Except ParseFault (List Json × Text)
  | 0, _, _ => .error .malformed
  | fuel + 1, room, s =>
    match value fuel room s with
    | .error f => .error f
    | .ok (v, rest) =>
      match skip rest with
      | ',' :: rest => (elements fuel room (skip rest)).map fun (vs, rest) => (v :: vs, rest)
      | ']' :: rest => .ok ([v], rest)
      | _ => .error .malformed

/-- The fields up to the closing brace of an object, and the rest. -/
def members : (fuel room : Nat) → Text → Except ParseFault (List (Text × Json) × Text)
  | 0, _, _ => .error .malformed
  | fuel + 1, room, s =>
    match s with
    | '"' :: rest =>
      match stringBody rest with
      | none => .error .malformed
      | some (k, rest) =>
        match skip rest with
        | ':' :: rest =>
          match value fuel room (skip rest) with
          | .error f => .error f
          | .ok (v, rest) =>
            match skip rest with
            | ',' :: rest =>
              (members fuel room (skip rest)).map fun (fs, rest) => ((k, v) :: fs, rest)
            | '}' :: rest => .ok ([(k, v)], rest)
            | _ => .error .malformed
        | _ => .error .malformed
    | _ => .error .malformed

end

/-- How many arrays and objects may stand inside each other when the program itself reads a text. It
is what the calls of the program leave of the stack. -/
def nesting : Nat := 985

/-- The value that a text holds. -/
def parse (room : Nat) (s : Text) : Except ParseFault Json := do
  let (v, rest) ← value (2 * s.length + 1) room (skip s)
  if (skip rest).isEmpty then return v else throw .malformed

/-- The value that the bytes of a message hold. -/
def ofMessage (room : Nat) (bytes : List UInt8) : Except ParseFault Json :=
  expect (Text.ofMessage? bytes) >>= parse room

end StyleScaffold.Json
