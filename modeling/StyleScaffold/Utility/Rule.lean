import StyleScaffold.Text.Blank
import StyleScaffold.Utility.Pixel
import StyleScaffold.Utility.Policy

/-!
# Class rules

Every property that can become classes has one rule. A rule turns a value into classes: a keyword
by a table, a length by a ladder or the numbered scale, a colour by its name or the colour
policy. A value that a rule does not understand gives no class.
-/

namespace StyleScaffold.Utility

open Text

/-- How the values of a property become classes. -/
inductive Rule where
  /-- A class for each of the listed keywords. -/
  | keyword (classes : List (Text × Text))
  /-- A length as a step of the spacing ladder or the numbered scale. -/
  | spacing (stem : Text)
  | radius
  | fontSize
  | fontWeight
  /-- A colour, with the class that stands for colours without a name. -/
  | color (stem fallback : Text)
  /-- A solid border: its width and its colour. -/
  | border
  /-- A length as it is written, or the whole of the container. -/
  | size (stem : Text)

/-- Texts with what they stand for. -/
def table (rows : List (String × String)) : List (Text × Text) :=
  rows.map fun (k, v) => (k, v)

/-- The layout of a container. -/
def displayClasses : List (Text × Text) :=
  table [("flex", "flex"), ("block", "block"), ("inline", "inline"),
    ("inline-block", "inline-block"), ("inline-flex", "inline-flex"), ("grid", "grid"),
    ("none", "hidden")]

/-- The direction of the main axis. -/
def directionClasses : List (Text × Text) :=
  table [("column", "flex-col"), ("row", "flex-row"), ("column-reverse", "flex-col-reverse"),
    ("row-reverse", "flex-row-reverse")]

/-- The alignment along the main axis. -/
def justifyClasses : List (Text × Text) :=
  table [("center", "justify-center"), ("space-between", "justify-between"),
    ("space-around", "justify-around"), ("flex-start", "justify-start"),
    ("flex-end", "justify-end")]

/-- The alignment across the main axis. -/
def alignClasses : List (Text × Text) :=
  table [("center", "items-center"), ("flex-start", "items-start"), ("flex-end", "items-end"),
    ("stretch", "items-stretch"), ("baseline", "items-baseline")]

/-- The alignment of text. -/
def textAlignClasses : List (Text × Text) :=
  table [("center", "text-center"), ("left", "text-left"), ("right", "text-right"),
    ("justify", "text-justify")]

/-- The rules of the properties that can become classes. -/
def rules : List (Text × Rule) :=
  [("display", .keyword displayClasses),
    ("flex-direction", .keyword directionClasses),
    ("justify-content", .keyword justifyClasses),
    ("align-items", .keyword alignClasses),
    ("text-align", .keyword textAlignClasses),
    ("padding", .spacing "p"),
    ("margin", .spacing "m"),
    ("gap", .spacing "gap"),
    ("border-radius", .radius),
    ("font-size", .fontSize),
    ("font-weight", .fontWeight),
    ("color", .color "text" "text-gray-900"),
    ("background-color", .color "bg" "bg-gray-100"),
    ("border", .border),
    ("width", .size "w"),
    ("height", .size "h")]

/-- Paddings, margins and gaps up to 24 pixels have steps of their own. -/
def spacingLadder : Ladder where
  steps := [(4, "1"), (8, "2"), (12, "3"), (16, "4"), (24, "6")]
  largest := "8"

/-- Radii up to 12 pixels have classes of their own. -/
def radiusLadder : Ladder where
  steps := [(2, "rounded-sm"), (4, "rounded"), (8, "rounded-md"), (12, "rounded-lg")]
  largest := "rounded-xl"

/-- The named font sizes. -/
def fontSizeClasses : List (Text × Text) :=
  table [("12", "text-xs"), ("14", "text-sm"), ("16", "text-base"), ("18", "text-lg"),
    ("20", "text-xl"), ("24", "text-2xl"), ("30", "text-3xl"), ("36", "text-4xl"),
    ("48", "text-5xl"), ("60", "text-6xl")]

/-- The named font weights. -/
def fontWeightClasses : List (Text × Text) :=
  table [("100", "font-thin"), ("200", "font-extralight"), ("300", "font-light"),
    ("400", "font-normal"), ("500", "font-medium"), ("600", "font-semibold"),
    ("700", "font-bold"), ("800", "font-extrabold"), ("900", "font-black")]

/-- The colours that keep a name under every policy. -/
def colorNames : List (Text × Text) :=
  table [("#ffffff", "white"), ("white", "white"), ("#000000", "black"), ("black", "black")]

/-- The name of a colour that has one. -/
def colorName? (value : Text) : Option Text := colorNames.lookup (trim value)

/-- A value inside a class, where underscores stand for blanks. -/
def unspaced (value : Text) : Text := collapse '_' (trim value)

/-- The class of a font size, if the value holds a pixel length. -/
def fontSizeClass? (value : Text) : Option Text :=
  (Pixel.first? value).map fun n =>
    (fontSizeClasses.lookup n.text).getD (Pixel.literalClass "text" n.text)

/-- The class of a font weight, if the value is a whole number. -/
def fontWeightClass? (value : Text) : Option Text :=
  let number := trim value
  if ! number.isEmpty && number.all isDigit then
    some ((fontWeightClasses.lookup number).getD (Pixel.bracketed "font" number))
  else none

/-- The class of a colour without a name under a policy, if it has one. -/
def unnamedColorClass (policy : ColorPolicy) (stem fallback value : Text) : Text :=
  match policy with
  | .palette => fallback
  | .arbitrary => Pixel.bracketed stem (unspaced value)

/-- The class of a colour. -/
def colorClass (policy : ColorPolicy) (stem fallback value : Text) : Text :=
  match colorName? value with
  | some name => stem ++ "-" ++ name
  | none => unnamedColorClass policy stem fallback value

/-- The width and the colour of a solid border. -/
def solidBorder? (value : Text) : Option (Numeral × Text) := do
  let (width, rest) ← Numeral.read? value
  let rest ← strip? "px" rest
  let (_, rest) ← run? isBlank rest
  let rest ← strip? "solid" rest
  let (_, color) ← run? isBlank rest
  if color.isEmpty || color.contains '\n' then none else some (width, color)

/-- The class of a border's width. -/
def borderWidthClass (width : Numeral) : Text :=
  if width.text = "1" then "border" else Pixel.literalClass "border" width.text

/-- The class of a border's colour, if it has one. -/
def borderColorClass? (policy : ColorPolicy) (color : Text) : Option Text :=
  match colorName? color with
  | some name => some ("border-" ++ name)
  | none =>
    match policy with
    | .palette => none
    | .arbitrary => some (Pixel.bracketed "border" (unspaced color))

/-- The class of a width or a height. -/
def sizeClass? (stem value : Text) : Option Text :=
  if trim value = "100%" then some (stem ++ "-full")
  else (Pixel.read? (trim value)).map fun n => Pixel.literalClass stem n.text

/-- The class of the first pixel length in a value: on the numbered scale, or by a ladder. -/
def lengthClasses (policy : SpacingPolicy) (stem : Text) (ladderClass : Binary64 → Text)
    (value : Text) : Except NumberFault (List Text) :=
  match Pixel.first? value with
  | none => .ok []
  | some n =>
    match policy with
    | .scale => (Pixel.scaleClass stem n.text n.value).map ([·])
    | .bucket => .ok [ladderClass n.value]

namespace Rule

/-- The kind of the rule, as it is listed. -/
def category : Rule → Text
  | .keyword _ => "keyword"
  | .spacing _ => "spacing"
  | .radius => "radius"
  | .fontSize => "font-size"
  | .fontWeight => "font-weight"
  | .color _ _ => "color"
  | .border => "border"
  | .size _ => "size"

/-- The classes of a value. Only the numbered scale can fail, when a length is too large for a
number. -/
def classes (policies : Policies) (value : Text) : Rule → Except NumberFault (List Text)
  | .keyword names => .ok (names.lookup (trim value)).toList
  | .spacing stem =>
    lengthClasses policies.spacing stem (fun x => stem ++ "-" ++ spacingLadder.label x) value
  | .radius => lengthClasses policies.spacing "rounded" radiusLadder.label value
  | .fontSize => .ok (fontSizeClass? value).toList
  | .fontWeight => .ok (fontWeightClass? value).toList
  | .color stem fallback => .ok [colorClass policies.color stem fallback value]
  | .border =>
    match solidBorder? (trim value) with
    | none => .ok []
    | some (width, tint) =>
      .ok (borderWidthClass width :: (borderColorClass? policies.color tint).toList)
  | .size stem => .ok (sizeClass? stem value).toList

end Rule

def rule? (property : Text) : Option Rule := rules.lookup property

/-- The kinds of the rules that apply to a property: one or none. -/
def categories (property : Text) : List Text := ((rule? property).map Rule.category).toList

end StyleScaffold.Utility
