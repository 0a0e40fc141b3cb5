import StyleScaffold.Css.Comment
import StyleScaffold.OrderedMap
import StyleScaffold.Text.Blank
import StyleScaffold.Text.Digit
import StyleScaffold.Text.Ascii
import StyleScaffold.Text.Hex
import StyleScaffold.Text.WordChar

/-!
# What a stylesheet defines and uses

Custom properties, media queries, key-frame animations and colours are found by scanning the
text from left to right. The scan does not look at comments or at the nesting of braces.
-/

namespace StyleScaffold.Css

open Text

/-- A custom property at the start of a text: its name without the dashes, and its value, which
runs to the next semicolon or closing brace and is trimmed. -/
def customProperty? (s : Text) : Option ((Text × Text) × Text) := do
  let rest ← strip? "--" s
  let (name, rest) ← run? isNameChar rest
  let rest ← strip? ":" (trimLeft rest)
  let (value, rest) ← run? (fun c => c ≠ ';' && c ≠ '}') rest
  some ((name, trim value), rest)

/-- The custom properties of a stylesheet. -/
def customProperties (sheet : Text) : OrderedMap Text Text :=
  .ofList (allMatches customProperty? sheet)

/-- A media query at the start of a text: what stands in front of the next brace. -/
def mediaQuery? (s : Text) : Option (Text × Text) := do
  let rest ← strip? "@media" s
  let (query, rest) ← run? (· ≠ '{') rest
  some (trim query, rest)

def mediaQueries (sheet : Text) : List Text := allMatches mediaQuery? sheet

/-- A key-frame rule at the start of a text: its name. -/
def keyframes? (s : Text) : Option (Text × Text) := do
  let rest ← strip? "@keyframes" s
  let (_, rest) ← run? isBlank rest
  run? isNameChar rest

def animations (sheet : Text) : List Text := allMatches keyframes? sheet

/-- Whether no word character stands at the start of a text. -/
def atWordEnd : Text → Bool
  | [] => true
  | c :: _ => ! isWordChar c

/-- Exactly `count` hexadecimal digits behind a hash, at the end of a word. -/
def hashColor? (count : Nat) (s : Text) : Option (Text × Text) := do
  let rest ← strip? "#" s
  let digits := rest.take count
  if digits.length = count && digits.all isHexDigit && atWordEnd (rest.drop count) then
    some ('#' :: digits, rest.drop count)
  else none

/-- The rest behind the characters of a class, at least one of them, and the blanks around. -/
def argument? (inClass : CodePoint → Bool) (s : Text) : Option Text :=
  (run? inClass (trimLeft s)).map fun (_, rest) => trimLeft rest

/-- The rest behind a function with numbers as its arguments: whole ones, and where `hasAlpha`
says so a last one that may have points. -/
def afterColorFunction? (name : Text) (hasAlpha : Bool) (s : Text) : Option Text := do
  let rest ← strip? (name ++ "(") s
  let rest ← strip? "," (← argument? isDigit rest)
  let rest ← strip? "," (← argument? isDigit rest)
  let rest ← argument? isDigit rest
  let rest ←
    if hasAlpha then do
      let rest ← strip? "," rest
      argument? (fun c => ('0' ≤ c && c ≤ '9') || c = '.') rest
    else some rest
  strip? ")" rest

/-- A colour function at the start of a text, as it is written. -/
def colorFunction? (name : Text) (hasAlpha : Bool) (s : Text) : Option (Text × Text) :=
  (afterColorFunction? name hasAlpha s).map fun rest => (s.take (s.length - rest.length), rest)

/-- A colour at the start of a text, as it is written. -/
def color? (s : Text) : Option (Text × Text) :=
  hashColor? 6 s <|> hashColor? 3 s <|> colorFunction? "rgb" false s <|>
    colorFunction? "rgba" true s

/-- The colours of a stylesheet in the order in which each is first used. -/
def colorLiterals (sheet : Text) : List Text := (allMatches color? sheet).eraseDups

/-- Numbers the colours from `first` on. -/
def numberColors (first : Nat) : List Text → List (Text × Text)
  | [] => []
  | color :: rest => ("color-" ++ ofNat first, color) :: numberColors (first + 1) rest

/-- The colours of a stylesheet under the names `color-1`, `color-2` and so on. -/
def colorPalette (sheet : Text) : OrderedMap Text Text :=
  .ofList (numberColors 1 (colorLiterals sheet))

/-- What was found in a stylesheet. -/
structure Analysis where
  customProperties : OrderedMap Text Text
  mediaQueries : List Text
  animations : List Text
  colorPalette : OrderedMap Text Text

/-- Goes through a stylesheet once for each kind of finding. -/
def analyze (sheet : Text) : Analysis where
  customProperties := customProperties sheet
  mediaQueries := mediaQueries sheet
  animations := animations sheet
  colorPalette := colorPalette sheet

/-- The text without semicolons that stand, blanks aside, in front of a closing brace. The blanks
between the two go as well. -/
def dropLastSemicolons : Text → Text
  | [] => []
  | c :: cs =>
    if c = ';' ∧ startsWith "\x7d" (trimLeft cs) then dropLastSemicolons (trimLeft cs)
    else c :: dropLastSemicolons cs
termination_by s => s.length
decreasing_by
  · have := (List.dropWhile_sublist isBlank (l := cs)).length_le
    simp only [trimLeft, List.length_cons]; omega
  · simp

/-- The stylesheet without comments, superfluous blanks and last semicolons. -/
def minify (sheet : Text) : Text :=
  trim (dropLastSemicolons (collapse ' ' (withoutComments sheet)))

end StyleScaffold.Css
