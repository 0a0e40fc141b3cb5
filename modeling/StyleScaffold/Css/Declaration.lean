import StyleScaffold.Css.Comment
import StyleScaffold.OrderedMap
import StyleScaffold.Text.Blank
import StyleScaffold.Text.Lines

/-!
# Declarations

A declaration is a property and a value with a colon between them. A block is read line by line,
after its comments are taken out. A line without braces holds at most one declaration. In a line
with braces, the pieces in front of an opening brace are selectors, and every other piece may
hold several declarations with semicolons between them.

Written declarations stand one on a line, each with a semicolon.
-/

namespace StyleScaffold.Css

open Text

/-- Properties with their values, in order. -/
abbrev Declarations := OrderedMap Text Text

def isBrace (c : CodePoint) : Bool := c = '{' || c = '}'

/-- The pieces of a line between its braces, each with the brace behind it. -/
def bracePieces : Text → List (Text × Option CodePoint)
  | [] => [([], none)]
  | c :: cs =>
    if isBrace c then ([], some c) :: bracePieces cs
    else
      match bracePieces cs with
      | [] => [([c], none)]
      | (piece, brace) :: rest => (c :: piece, brace) :: rest

/-- The parts of a line that may hold a declaration. -/
def fragmentsOfLine (line : Text) : List Text :=
  if line.any isBrace then
    (bracePieces line).flatMap fun (piece, brace) =>
      if brace = some '{' then [] else cut ';' piece
  else [line]

/-- The parts of a block that may hold a declaration. -/
def fragments (block : Text) : List Text := (lines (withoutComments block)).flatMap fragmentsOfLine

/-- The text without one semicolon at its end and the blanks in front of that. -/
def dropSemicolon (s : Text) : Text :=
  match s.reverse with
  | ';' :: rest => (rest.dropWhile isBlank).reverse
  | _ => s

/-- The declaration in a fragment: the trimmed sides of the first colon, if neither is empty. -/
def declaration? (fragment : Text) : Option (Text × Text) :=
  match halves? ':' fragment with
  | none => none
  | some (left, right) =>
    let property := trim left
    let value := dropSemicolon (trim right)
    if property.isEmpty || value.isEmpty then none else some (property, value)

/-- The declarations of a block; a repeated property keeps its first place and its last value. -/
def declarations (block : Text) : Declarations :=
  .ofList ((fragments block).filterMap declaration?)

/-- A declaration on a line of its own. -/
def declarationLine (indent : Text) (d : Text × Text) : Text :=
  indent ++ d.1 ++ ": " ++ d.2 ++ ";"

/-- The declarations in order, one on a line. -/
def declarationsText (indent : Text) (ds : Declarations) : Text :=
  join ['\n'] (ds.entries.map (declarationLine indent))

/-- The written declarations in a rule with the given selector. -/
def ruleText (selector body : Text) : Text := selector ++ " \x7b\n" ++ body ++ "\n\x7d"

end StyleScaffold.Css
