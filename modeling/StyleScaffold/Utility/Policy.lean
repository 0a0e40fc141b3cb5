import StyleScaffold.Text.Basic

/-!
# Policies

Two choices govern which classes come of a stylesheet. The colour policy says what becomes of
colours other than black and white, and the spacing policy says what becomes of lengths.
-/

namespace StyleScaffold

/-- What becomes of a colour that has no name. -/
inductive ColorPolicy where
  /-- One generic class stands for all of them. -/
  | palette
  /-- The class holds the colour as it is written. -/
  | arbitrary
  deriving DecidableEq, Repr

/-- What becomes of a length. -/
inductive SpacingPolicy where
  /-- The next step of a fixed ladder. -/
  | bucket
  /-- A quarter of the length where that is whole, and otherwise the length as it is written. -/
  | scale
  deriving DecidableEq, Repr

/-- The policies of a conversion. -/
structure Policies where
  color : ColorPolicy := .palette
  spacing : SpacingPolicy := .bucket
  deriving DecidableEq, Repr

namespace ColorPolicy

/-- The name of the policy in settings and requests. -/
def name : ColorPolicy → Text
  | .palette => "palette"
  | .arbitrary => "arbitrary"

def ofName? (s : Text) : Option ColorPolicy := [palette, arbitrary].find? (·.name == s)

theorem ofName?_name (p : ColorPolicy) : ofName? p.name = some p := by cases p <;> decide

end ColorPolicy

namespace SpacingPolicy

/-- The name of the policy in settings and requests. -/
def name : SpacingPolicy → Text
  | .bucket => "bucket"
  | .scale => "scale"

def ofName? (s : Text) : Option SpacingPolicy := [bucket, scale].find? (·.name == s)

theorem ofName?_name (p : SpacingPolicy) : ofName? p.name = some p := by cases p <;> decide

end SpacingPolicy

end StyleScaffold
