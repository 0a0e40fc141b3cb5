import StyleScaffold.Json.Basic
import StyleScaffold.Number.Shortest
import StyleScaffold.Text.Hex

/-!
# Writing JSON

Values are written in two layouts. The indented one puts every item and field on a line of its
own, two spaces deeper than its container, and writes empty containers in one piece. The compact
one has no space at all and sorts the fields of every object by their keys.

In both, texts are written in printable ASCII: quotes, backslashes and control characters are
escaped, the one that ends ASCII among them, and every other character by its UTF-16 units.
-/

namespace StyleScaffold.Json

open Text

/-- An escape for one UTF-16 unit. -/
def unitEscape (n : Nat) : Text := "\\u" ++ hex 4 n

/-- A character inside a text. -/
def charText (c : CodePoint) : Text :=
  let n := c.toNat
  if c = '"' then "\\\""
  else if c = '\\' then "\\\\"
  else if c = '\n' then "\\n"
  else if c = '\r' then "\\r"
  else if c = '\t' then "\\t"
  else if c = '\x0c' then "\\f"
  else if c = '\x08' then "\\b"
  else if 0x20 ≤ n ∧ n < 0x7F then [c]
  else if n < 0x10000 then unitEscape n
  else
    unitEscape (0xD800 + (n - 0x10000) / 0x400) ++ unitEscape (0xDC00 + (n - 0x10000) % 0x400)

def stringText (s : Text) : Text := "\"" ++ s.flatMap charText ++ "\""

/-- A floating-point number; the ones that are not finite have words. -/
def floatText : Binary64 → Text
  | .infinite negative => if negative then "-Infinity" else "Infinity"
  | .nan => "NaN"
  | x => x.text

/-- A value without parts. -/
def scalarText : Json → Text
  | .null => "null"
  | .bool b => if b then "true" else "false"
  | .int n => ofInt n
  | .float x => floatText x
  | .str s => stringText s
  | _ => []

/-- A new line with two spaces for every level. -/
def newLine (depth : Nat) : Text := '\n' :: copies (2 * depth) ' '

mutual

/-- The indented text of a value at a depth. -/
def indentedAt (depth : Nat) : Json → Text
  | .arr [] => "[]"
  | .arr (v :: vs) =>
    "[" ++ newLine (depth + 1) ++ indentedAt (depth + 1) v ++ indentedItems (depth + 1) vs
      ++ newLine depth ++ "]"
  | .obj [] => "\x7b\x7d"
  | .obj ((k, v) :: fs) =>
    "\x7b" ++ newLine (depth + 1) ++ stringText k ++ ": " ++ indentedAt (depth + 1) v
      ++ indentedFields (depth + 1) fs ++ newLine depth ++ "\x7d"
  | v => scalarText v

/-- The items behind the first one. -/
def indentedItems (depth : Nat) : List Json → Text
  | [] => []
  | v :: vs => "," ++ newLine depth ++ indentedAt depth v ++ indentedItems depth vs

/-- The fields behind the first one. -/
def indentedFields (depth : Nat) : List (Text × Json) → Text
  | [] => []
  | (k, v) :: fs =>
    "," ++ newLine depth ++ stringText k ++ ": " ++ indentedAt depth v ++ indentedFields depth fs

end

def indented (v : Json) : Text := indentedAt 0 v

/-- Whether the first text comes before or with the second one by code points. -/
def textLe : Text → Text → Bool
  | [], _ => true
  | _ :: _, [] => false
  | a :: s, b :: t => if a = b then textLe s t else a.toNat < b.toNat

mutual

/-- The value with the fields of every object in the order of their keys. -/
def sortFields : Json → Json
  | .arr items => .arr (sortItems items)
  | .obj fields => .obj ((sortValues fields).mergeSort fun a b => textLe a.1 b.1)
  | v => v

/-- The items, each with its fields sorted. -/
def sortItems : List Json → List Json
  | [] => []
  | v :: vs => sortFields v :: sortItems vs

/-- The fields in their order, each value with its own fields sorted. -/
def sortValues : List (Text × Json) → List (Text × Json)
  | [] => []
  | (k, v) :: fs => (k, sortFields v) :: sortValues fs

end

mutual

/-- The text of a value without any space, its fields in their order. -/
def dense : Json → Text
  | .arr items => "[" ++ join "," (denseItems items) ++ "]"
  | .obj fields => "\x7b" ++ join "," (denseFields fields) ++ "\x7d"
  | v => scalarText v

/-- The texts of items. -/
def denseItems : List Json → List Text
  | [] => []
  | v :: vs => dense v :: denseItems vs

/-- The texts of fields. -/
def denseFields : List (Text × Json) → List Text
  | [] => []
  | (k, v) :: fs => (stringText k ++ ":" ++ dense v) :: denseFields fs

end

/-- The compact text of a value. -/
def compact (v : Json) : Text := dense (sortFields v)

end StyleScaffold.Json
