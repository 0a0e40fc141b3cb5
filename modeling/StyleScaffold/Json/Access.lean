import StyleScaffold.Json.Basic
import StyleScaffold.Number.Literal

/-!
# Reading data out of JSON values

Data that comes from outside may have any shape. Each reading below says what it asks of a value,
and a value that does not fit gives the cause.
-/

namespace StyleScaffold

/-- Why a value could not be read. -/
inductive DataFault where
  /-- Fields were asked of a value that is no object. -/
  | notAnObject
  /-- The value is of a kind that cannot be used here. -/
  | unsuitable
  /-- A text with the wrong number of parts. -/
  | malformed
  /-- The value had to be a number in range. -/
  | number (fault : NumberFault)
  deriving DecidableEq, Repr

namespace Json

open Text

/-- The fields of an object. -/
def fields? : Json → Except DataFault (List (Text × Json))
  | .obj fields => .ok fields
  | _ => .error .notAnObject

/-- A field of an object, null where it is missing. -/
def fieldOrNull (fields : List (Text × Json)) (key : Text) : Json :=
  (lookup key fields).getD .null

/-- A field of an object, with a default where it is missing. -/
def fieldOr (fields : List (Text × Json)) (key : Text) (default : Json) : Json :=
  (lookup key fields).getD default

/-- The floating-point number that a value gives: numbers and truth values are converted, texts
are read. -/
def toFloat : Json → Except DataFault Binary64
  | .bool b => .ok (if b then .one else .zero)
  | .int n => (Binary64.ofInt? n).mapError .number
  | .float x => .ok x
  | .str s =>
    match Literal.float? s with
    | some x => .ok x
    | none => .error (.number .notANumber)
  | _ => .error .unsuitable

/-- The whole number that a value gives; a fraction is cut off. -/
def toInt : Json → Except DataFault Int
  | .bool b => .ok (if b then 1 else 0)
  | .int n => .ok n
  | .float x => x.truncate?.mapError .number
  | .str s =>
    match Literal.integer? s with
    | some n => .ok n
    | none => .error (.number .notANumber)
  | _ => .error .unsuitable

/-- The parts of a value that is gone through one by one: the items of an array, the characters
of a text, the keys of an object. -/
def parts : Json → Except DataFault (List Json)
  | .arr items => .ok items
  | .str s => .ok (s.map fun c => .str [c])
  | .obj fields => .ok (fields.map fun f => .str f.1)
  | _ => .error .unsuitable

/-- The value as a key of a map. -/
def toKey (v : Json) : Except DataFault Key :=
  match v.key? with
  | some k => .ok k
  | none => .error .unsuitable

/-- A key and a value from something with two parts. -/
def toPair (v : Json) : Except DataFault (Key × Json) := do
  match ← v.parts with
  | [k, x] => return (← k.toKey, x)
  | _ => throw .malformed

/-- The map that a value gives: an object by its fields, anything else by the pairs that its
parts are. -/
def toMap : Json → Except DataFault (OrderedMap Key Json)
  | .obj fields => .ok (.ofList (fields.map fun f => (.text f.1, f.2)))
  | v => do return .ofList (← (← v.parts).mapM toPair)

end Json

end StyleScaffold
