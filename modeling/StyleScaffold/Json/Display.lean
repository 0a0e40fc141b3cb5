import StyleScaffold.Json.Basic
import StyleScaffold.Number.Shortest
import StyleScaffold.Text.Quoted

/-!
# Values in messages and names

Where a value stands for a name, a text is shown as it is. Everything else, and every text
inside an array or an object, is shown in the notation of data literals: words with capitals for
the constants, quoted texts, and a space behind each comma and colon.
-/

namespace StyleScaffold.Json

open Text

mutual

/-- The literal of a value. -/
def literal : Json → Text
  | .null => "None"
  | .bool b => if b then "True" else "False"
  | .int n => ofInt n
  | .float x => x.text
  | .str s => quoted s
  | .arr items => "[" ++ join ", " (literals items) ++ "]"
  | .obj fields => "\x7b" ++ join ", " (fieldLiterals fields) ++ "\x7d"

/-- The literals of items. -/
def literals : List Json → List Text
  | [] => []
  | v :: vs => literal v :: literals vs

/-- The literals of fields. -/
def fieldLiterals : List (Text × Json) → List Text
  | [] => []
  | (k, v) :: fs => (quoted k ++ ": " ++ literal v) :: fieldLiterals fs

end

/-- The value as part of a name or a message. -/
def display : Json → Text
  | .str s => s
  | v => literal v

end StyleScaffold.Json
