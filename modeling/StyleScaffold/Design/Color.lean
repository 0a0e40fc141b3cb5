import StyleScaffold.Json.Access
import StyleScaffold.Number.Shortest
import StyleScaffold.Text.Hex

/-!
# Colours of a design

A colour has red, green, blue and alpha channels from zero to one. For a stylesheet a channel
becomes a whole number from 0 to 255: its 255-fold as a floating-point number, rounded, halves to
the even one. Channels outside the range are not cut off.
-/

namespace StyleScaffold.Design

open Text

/-- A colour by its channels. -/
structure Color where
  red : Binary64
  green : Binary64
  blue : Binary64
  alpha : Binary64
  deriving DecidableEq, Repr

namespace Color

/-- The colour that an object gives; a missing channel is zero, and a missing alpha is one. -/
def ofJson (v : Json) : Except DataFault Color := do
  let fields ← v.fields?
  let red ← (Json.fieldOr fields "r" (.int 0)).toFloat
  let green ← (Json.fieldOr fields "g" (.int 0)).toFloat
  let blue ← (Json.fieldOr fields "b" (.int 0)).toFloat
  let alpha ← (Json.fieldOr fields "a" (.int 1)).toFloat
  return ⟨red, green, blue, alpha⟩

/-- A channel as a whole number. -/
def channel (x : Binary64) : Except NumberFault Int := (x.times 255).round?

/-- A whole number in hexadecimal with at least two characters, the sign among them. -/
def channelHex : Int → Text
  | .ofNat n => hex 2 n
  | .negSucc n => '-' :: hex 1 (n + 1)

/-- The three channels as whole numbers. -/
def channels (c : Color) : Except NumberFault (Int × Int × Int) := do
  let red ← channel c.red
  let green ← channel c.green
  let blue ← channel c.blue
  return (red, green, blue)

/-- The colour behind a hash sign; the alpha is left out. -/
def hexText (c : Color) : Except NumberFault Text := do
  let (red, green, blue) ← c.channels
  return '#' :: (channelHex red ++ channelHex green ++ channelHex blue)

/-- The colour as a function of its channels and its alpha. -/
def functionText (c : Color) : Except NumberFault Text := do
  let (red, green, blue) ← c.channels
  return "rgba(" ++ join ", " [ofInt red, ofInt green, ofInt blue, c.alpha.rounded] ++ ")"

end Color

end StyleScaffold.Design
