import StyleScaffold.Number.Binary64
import StyleScaffold.OrderedMap
import StyleScaffold.Text.Basic

/-!
# JSON values

A JSON value keeps the order of the fields of an object, and keeps whole numbers apart from
floating-point ones. The field lists of values that were read from text have no repeated key.
-/

namespace StyleScaffold

/-- A JSON value. -/
inductive Json where
  | null
  | bool (b : Bool)
  | int (n : Int)
  | float (x : Binary64)
  | str (s : Text)
  | arr (items : List Json)
  | obj (fields : List (Text × Json))

namespace Json

instance : Inhabited Json := ⟨null⟩

/-- Whether the value counts as present: null, false, zero and the empty text, array and object
do not. -/
def truthy : Json → Bool
  | .null => false
  | .bool b => b
  | .int n => n ≠ 0
  | .float x => x.isNonzero
  | .str s => ! s.isEmpty
  | .arr items => ! items.isEmpty
  | .obj fields => ! fields.isEmpty

def ofTexts (fields : List (Text × Text)) : Json := .obj (fields.map fun (k, v) => (k, .str v))

def ofTextList (items : List Text) : Json := .arr (items.map .str)

/-- Whether the value is the given text. -/
def isText (t : Text) : Json → Bool
  | .str s => s == t
  | _ => false

/-- The value of a field in a field list. -/
def lookup (key : Text) : List (Text × Json) → Option Json
  | [] => none
  | (k, v) :: rest => if k = key then some v else lookup key rest

end Json

/-- A value that can be a key of a map: everything but arrays and objects. -/
inductive Key where
  | null
  | bool (b : Bool)
  | int (n : Int)
  | float (x : Binary64)
  | text (s : Text)

namespace Key

/-- The number that a key stands for: truth values are one and zero, and a floating-point number
without a fraction is a whole number. -/
def number? : Key → Option (Int ⊕ Binary64)
  | .bool b => some (.inl (if b then 1 else 0))
  | .int n => some (.inl n)
  | .float x => some (match x.whole? with | some n => .inl n | none => .inr x)
  | _ => none

/-- Keys are equal when they are the same text, both null, or the same number. -/
def same (a b : Key) : Bool :=
  match a, b with
  | .null, .null => true
  | .text s, .text t => s == t
  | _, _ => a.number?.isSome && a.number? == b.number?

instance : BEq Key := ⟨same⟩

/-- The key as a value. -/
def toJson : Key → Json
  | .null => .null
  | .bool b => .bool b
  | .int n => .int n
  | .float x => .float x
  | .text s => .str s

@[simp] theorem text_beq_text (s t : Text) : (Key.text s == Key.text t) = (s == t) := rfl

end Key

namespace Json

/-- The value as a key, unless it is an array or an object. -/
def key? : Json → Option Key
  | .null => some .null
  | .bool b => some (.bool b)
  | .int n => some (.int n)
  | .float x => some (.float x)
  | .str s => some (.text s)
  | .arr _ => none
  | .obj _ => none

end Json

end StyleScaffold
