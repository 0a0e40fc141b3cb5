import StyleScaffold.Text.Digit
import StyleScaffold.Text.Hex
import StyleScaffold.Text.Printable

/-!
# Quoted texts

A text is quoted for a message so that no character of it is lost or invisible. The quotes are
single ones, unless the text holds a single quote and no double one. The quote in use and the
backslash stand behind a backslash; line feeds, carriage returns and tabs have letters; every
other character that does not show is written by its code point in two, four or eight
hexadecimal digits.
-/

namespace StyleScaffold.Text

/-- The quote around a text. -/
def quoteFor (s : Text) : CodePoint := if s.contains '\'' && ! s.contains '"' then '"' else '\''

/-- One character of a text between the given quotes. -/
def escape (quote c : CodePoint) : Text :=
  if c = quote || c = '\\' then ['\\', c]
  else if c = '\n' then "\\n"
  else if c = '\r' then "\\r"
  else if c = '\t' then "\\t"
  else if isPrintable c then [c]
  else if c.toNat < 0x100 then "\\x" ++ hex 2 c.toNat
  else if c.toNat < 0x10000 then "\\u" ++ hex 4 c.toNat
  else "\\U" ++ hex 8 c.toNat

/-- The text between quotes. -/
def quoted (s : Text) : Text :=
  let quote := quoteFor s
  quote :: s.flatMap (escape quote) ++ [quote]

end StyleScaffold.Text
