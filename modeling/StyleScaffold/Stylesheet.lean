import StyleScaffold.Component.Basic
import StyleScaffold.Css.Block
import StyleScaffold.Css.ComponentName
import StyleScaffold.Utility.Classes

/-!
# Stylesheets to components

A stylesheet is converted in two ways. As a component it gives the classes of its first block
under the name that the whole text has. Block by block it gives the selector, the declarations
and the classes of each. Both refuse a blank text and a text without a block.
-/

namespace StyleScaffold

open Text Css

/-- The choices that go into a conversion. -/
structure ConversionSettings where
  policies : Policies := {}
  defaultName : Text := defaultComponentName

/-- Why a stylesheet cannot be converted. -/
inductive StylesheetFault where
  /-- The text is blank. -/
  | blank
  /-- No group of lines has its braces in balance. -/
  | noBlock
  /-- A length is no number that the scale can use. -/
  | number (fault : NumberFault)
  deriving DecidableEq, Repr

namespace StylesheetFault

/-- The words for a fault of the stylesheet; a number that cannot be used has none. -/
def message : StylesheetFault → Text
  | .blank => "No CSS content provided"
  | .noBlock => "No valid CSS block found"
  | .number _ => []

end StylesheetFault

/-- One block with its classes. -/
structure ConvertedBlock where
  selector : Text
  declarations : Declarations
  classes : List Text

/-- The blocks of a stylesheet that has some. -/
def requiredBlocks (sheet : Text) : Except StylesheetFault (List Text) :=
  if allBlank sheet then .error .blank
  else if (blocks sheet).isEmpty then .error .noBlock
  else .ok (blocks sheet)

/-- The conversion of one block. -/
def convertBlock (policies : Policies) (block : Text) :
    Except StylesheetFault ConvertedBlock := do
  let classes ← (Utility.classes policies (declarations block)).mapError .number
  return ⟨blockSelector block, declarations block, classes⟩

/-- The conversion of every block, in order. -/
def convertStylesheet (policies : Policies) (sheet : Text) :
    Except StylesheetFault (List ConvertedBlock) := do
  (← requiredBlocks sheet).mapM (convertBlock policies)

/-- The component that a stylesheet describes. -/
def componentOfStylesheet (settings : ConversionSettings) (sheet : Text) :
    Except StylesheetFault Component := do
  let blocks ← requiredBlocks sheet
  let block ← convertBlock settings.policies (blocks.headD [])
  return ⟨componentName settings.defaultName sheet, block.classes, block.declarations⟩

end StyleScaffold
