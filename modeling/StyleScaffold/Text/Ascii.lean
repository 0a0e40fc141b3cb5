import StyleScaffold.Text.Basic

/-!
# ASCII

The letters and digits of ASCII, and the change of case among them. Nothing else has a case
here.
-/

namespace StyleScaffold.Text

def isAscii (c : CodePoint) : Bool := c.toNat < 0x80

def isAsciiDigit (c : CodePoint) : Bool := '0' ≤ c && c ≤ '9'

def isAsciiLetter (c : CodePoint) : Bool := ('a' ≤ c && c ≤ 'z') || ('A' ≤ c && c ≤ 'Z')

def isAsciiAlnum (c : CodePoint) : Bool := isAsciiDigit c || isAsciiLetter c

/-- Whether the character may stand in an identifier of a stylesheet: a letter or digit of
ASCII, a hyphen or an underscore. -/
def isNameChar (c : CodePoint) : Bool := isAsciiAlnum c || c == '-' || c == '_'

/-- Whether the character may stand in the scheme of an address. -/
def isSchemeChar (c : CodePoint) : Bool := isAsciiAlnum c || c = '+' || c = '.' || c = '-'

def isAsciiControl (c : CodePoint) : Bool := c.toNat < 0x20 || c.toNat = 0x7F

/-- A capital letter of ASCII as its small letter. -/
def asciiLower (c : CodePoint) : CodePoint :=
  if 'A' ≤ c ∧ c ≤ 'Z' then .ofNat (c.toNat + 32) else c

/-- A small letter of ASCII as its capital letter. -/
def asciiUpper (c : CodePoint) : CodePoint :=
  if 'a' ≤ c ∧ c ≤ 'z' then .ofNat (c.toNat - 32) else c

end StyleScaffold.Text
