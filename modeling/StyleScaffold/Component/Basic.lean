import StyleScaffold.Css.Declaration
import StyleScaffold.Json.Basic
import StyleScaffold.Text.LowerCase

/-!
# Components

A component is a name, the utility classes that style it, and the declarations they come from.
Everything else about it is derived: the contract of its properties, the markup, the code of a
script component, a rule that holds the declarations, and counts.
-/

namespace StyleScaffold

open Text

/-- A named component with its classes and declarations. -/
structure Component where
  name : Text
  classes : List Text
  declarations : Css.Declarations

/-- Counts about a component. -/
structure Statistics where
  declarations : Nat
  responsiveClasses : Nat
  animationClasses : Nat
  customValueClasses : Nat
  deriving DecidableEq, Repr

namespace Component

/-- The marks of classes that hold from some screen width on. -/
def breakpointMarks : List Text := ["sm:", "md:", "lg:", "xl:", "2xl:"]

/-- Whether a class holds from some screen width on only. -/
def isResponsive (cls : Text) : Bool := breakpointMarks.any (holds · cls)

def isAnimation (cls : Text) : Bool := holds "animate-" cls

/-- Whether a class holds a value of its own in brackets. -/
def isCustomValue (cls : Text) : Bool := cls.contains '[' && cls.contains ']'

/-- The counts for classes and declarations. -/
def statisticsOf (classes : List Text) (declarations : Css.Declarations) : Statistics where
  declarations := declarations.size
  responsiveClasses := classes.countP isResponsive
  animationClasses := classes.countP isAnimation
  customValueClasses := classes.countP isCustomValue

def statistics (c : Component) : Statistics := statisticsOf c.classes c.declarations

def customValueClasses (c : Component) : List Text := c.classes.filter isCustomValue

def classText (c : Component) : Text := join [' '] c.classes

/-- The interface of the properties that the component takes. -/
def propsContract (c : Component) : Text :=
  "interface " ++ c.name ++ "Props \x7b\n  children?: React.ReactNode;\n" ++
    "  className?: string;\n\x7d"

/-- The declarations in a rule for the class with the component's name in lower case. -/
def declarationsRule (c : Component) : Text :=
  let selector : Text := "." ++ lower c.name
  if c.declarations.entries.isEmpty then selector ++ " \x7b\n\x7d"
  else Css.ruleText selector (Css.declarationsText "  " c.declarations)

/-- An element that carries the classes. -/
def markup (c : Component) : Text :=
  "<div class=\"" ++ c.classText ++ "\">\n  <!-- Component content -->\n</div>"

/-- The code of a script component that carries the classes. -/
def scriptCode (c : Component) : Text :=
  "import React from 'react';\nimport \x7b cn \x7d from '@/lib/utils';\n\n" ++
    c.propsContract ++
    "\n\nconst " ++ c.name ++ " = (\x7b children, className \x7d: " ++ c.name ++
    "Props) => \x7b\n  return (\n    <div className=\x7bcn(\"" ++ c.classText ++
    "\", className)\x7d>\n      \x7bchildren\x7d\n    </div>\n  );\n\x7d;\n\nexport default " ++
    c.name ++ ";"

end Component

/-- The counts as an object. -/
def Statistics.toJson (s : Statistics) : Json :=
  .obj [("declaration_count", .int s.declarations),
    ("responsive_class_count", .int s.responsiveClasses),
    ("animation_class_count", .int s.animationClasses),
    ("custom_value_class_count", .int s.customValueClasses)]

/-- The component with everything derived from it, as an object. -/
def Component.toJson (c : Component) : Json :=
  .obj [("name", .str c.name),
    ("props_contract", .str c.propsContract),
    ("utility_classes", .ofTextList c.classes),
    ("utility_class_string", .str c.classText),
    ("original_declarations_text", .str c.declarationsRule),
    ("markup_template", .str c.markup),
    ("react_code", .str c.scriptCode),
    ("custom_value_classes", .ofTextList c.customValueClasses),
    ("statistics", c.statistics.toJson)]

end StyleScaffold
