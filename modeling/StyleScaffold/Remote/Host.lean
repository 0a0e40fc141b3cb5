import StyleScaffold.Text.Digit
import StyleScaffold.Text.Hex
import StyleScaffold.Text.LowerCase
import StyleScaffold.Text.Percent
import StyleScaffold.Text.Punycode
import StyleScaffold.Text.WordChar

/-!
# Hosts

A host is a name or a number. Four numbers with points between them, and groups of hexadecimal
digits in brackets, are numbers of hosts; a text that looks like one has to be one. Names are
written in small letters, and a character of ASCII that cannot stand in a name by its bytes.

The labels of a name may hold letters and digits from outside ASCII. Such a label is written in
Punycode behind a mark, and a name that starts with one is shown with its labels read back.
-/

namespace StyleScaffold.Remote

open Text

namespace Host

/-- Whether the text can be read as four runs of digits with one character of any kind between
neighbours. Runs that are long enough can lend a digit to be such a character. -/
def looksDotted (s : Text) : Bool :=
  let runs := (cut '.' (s.map fun c => if isAsciiDigit c then c else '.')).map List.length
  runs.length ≤ 4 && runs.all (0 < ·) &&
    4 - runs.length ≤ runs.foldl (fun total n => total + (n - 1) / 2) 0

/-- Whether the text is a number up to 255 without a zero in front. -/
def isOctet (s : Text) : Bool :=
  ! s.isEmpty && s.length ≤ 3 && s.all isAsciiDigit && digitsValue s ≤ 255 &&
    (s = "0" || s.head? ≠ some '0')

/-- Whether the text is four numbers of one byte with points between them. -/
def isDotted (s : Text) : Bool :=
  let octets := cut '.' s
  octets.length = 4 && octets.all isOctet

/-- Whether the text is a group of hexadecimal digits. -/
def isGroup (s : Text) : Bool := ! s.isEmpty && s.length ≤ 4 && s.all isHexDigit

/-- How many groups of two bytes the text writes with colons between them. The last two of them
may be written with points. -/
def groupCount? (s : Text) : Option Nat :=
  let parts := cut ':' s
  match parts.getLast? with
  | none => none
  | some last =>
    if s.isEmpty then some 0
    else if ! parts.dropLast.all isGroup then none
    else if isGroup last then some parts.length
    else if isDotted last then some (parts.length + 1)
    else none

/-- Whether the text is eight groups, of which two colons in a row may leave out some. -/
def isGrouped (s : Text) : Bool :=
  match after? "::" s with
  | none => groupCount? s = some 8
  | some right =>
    let left := s.take (s.length - right.length - 2)
    match groupCount? left, groupCount? right with
    | some m, some n => m + n ≤ 7 && ! left.contains '.'
    | _, _ => false

/-- Whether the text is a number in groups, perhaps with a zone behind a percent sign. -/
def isZoned (s : Text) : Bool :=
  match halves? '%' s with
  | none => isGrouped s
  | some (groups, zone) => isGrouped groups && ! zone.isEmpty && ! zone.contains '%'

/-- The characters of ASCII that are not written as themselves in a name. -/
def reserved : Text := " #/:<>?@[]^"

/-! ## Names in any script -/

/-- The mark of a label in Punycode. -/
def labelMark : Text := "xn--"

/-- Whether the character may stand in a label. -/
def isLabelChar (c : CodePoint) : Bool := c = '-' || (isWordChar c && c ≠ '_')

/-- Whether the text can be a label: hyphens neither begin nor end it, nor are two of them in
the places where a mark has them. -/
def isLabel (s : Text) : Bool :=
  s.all isLabelChar && s.head? ≠ some '-' && s.getLast? ≠ some '-' &&
    ! startsWith "--" (s.drop 2)

def maxLabelLength : Nat := 63

/-- The most characters in a name, without a full stop that ends it. -/
def maxNameLength : Nat := 253

/-- A label as it is written, if it can be. Punycode makes no label shorter. -/
def labelText? (s : Text) : Option Text :=
  if s.isEmpty || maxLabelLength < s.length || ! isLabel s then none
  else
    let written := if s.all isAscii then s else labelMark ++ Punycode.encode s
    if written.length ≤ maxLabelLength then some written else none

/-- A name as it is written. Any full stop ends a label, and one may end the name. -/
def nameText? (s : Text) : Option Text := do
  let stops : Text := ".\u3002\uFF0E\uFF61"
  let labels := cut '.' (s.map fun c => if stops.contains c then '.' else c)
  let isEnded := labels.getLast? = some []
  let written ← (if isEnded then labels.dropLast else labels).mapM labelText?
  let name := join "." (if isEnded then written ++ [[]] else written)
  if name.length ≤ maxNameLength + (if isEnded then 1 else 0) then some name else none

/-- The host as it is shown. -/
def shown (host : Text) : Text :=
  if startsWith labelMark host then
    join "." ((cut '.' host).map fun label =>
      ((strip? labelMark label).bind Punycode.decode?).getD label)
  else host

/-! ## Reading -/

/-- The host that a text writes, if it is one. -/
def ofText? (s : Text) : Option Text :=
  if looksDotted s then (if isDotted s then some s else none)
  else if s.head? = some '[' ∧ s.getLast? = some ']' then
    let inner := s.tail.dropLast
    if isZoned inner then some inner else none
  else if s.all isAscii then
    some ((percentEncode (fun c => ! reserved.contains c) s).map asciiLower)
  else nameText? (lower s)

/-- The host as it stands in an address: a number in groups keeps its brackets. -/
def text (host : Text) : Text := if host.contains ':' then "[" ++ host ++ "]" else host

end Host

end StyleScaffold.Remote
