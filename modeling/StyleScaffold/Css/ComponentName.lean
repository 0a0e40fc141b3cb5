import StyleScaffold.Text.Blank
import StyleScaffold.Text.Ascii

/-!
# Component names

A component is named after the first comment of its stylesheet, provided that the comment is no
layout note, is short and has letters or digits in it. Otherwise it takes the name of the first
class selector, and otherwise a default.

The comment that names is plain: it has something in it, and no star.
-/

namespace StyleScaffold.Css

open Text

/-- The phrase by which design tools mark the layout of a container. -/
def layoutNote : Text := "Auto layout"

/-- Comments of this length or more are prose and name nothing. -/
def maxNameComment : Nat := 50

/-- The name that is given where a stylesheet has none. -/
def defaultComponentName : Text := "Component"

/-- The content of a plain comment at the start of a text. -/
def plainComment? (s : Text) : Option Text := do
  let rest ← strip? "/*" s
  let (content, rest) ← run? (· ≠ '*') rest
  if startsWith "*/" rest then some (trim content) else none

/-- The letters and digits of a text, if there are any. -/
def identifierIn? (s : Text) : Option Text :=
  let name := s.filter isAsciiAlnum
  if name.isEmpty then none else some name

/-- The name that the first plain comment gives. -/
def nameFromComment? (sheet : Text) : Option Text := do
  let content ← firstMatch plainComment? sheet
  if holds layoutNote content || maxNameComment ≤ content.length then none
  else identifierIn? content

/-- The class selector at the start of a text: a dot, a letter and further name characters. -/
def classSelector? : Text → Option Text
  | '.' :: c :: rest => if isAsciiLetter c then some (c :: rest.takeWhile isNameChar) else none
  | _ => none

/-- The name of the first class selector, without hyphens and underscores. -/
def nameFromSelector? (sheet : Text) : Option Text :=
  (firstMatch classSelector? sheet).map (·.filter isAsciiAlnum)

/-- The name of the component that a stylesheet describes. -/
def componentName (default sheet : Text) : Text :=
  match nameFromComment? sheet with
  | some name => name
  | none => (nameFromSelector? sheet).getD default

end StyleScaffold.Css
