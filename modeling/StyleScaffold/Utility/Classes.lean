import StyleScaffold.Css.Declaration
import StyleScaffold.Utility.Rule

/-!
# Classes of declarations

The declarations of a map become classes one by one; the classes stand in the order of the
declarations, each class once, at its first place. Declarations without a rule, or with a value
that their rule does not understand, contribute nothing.
-/

namespace StyleScaffold.Utility

open Text Css

/-- The classes of one declaration. -/
def declarationClasses (policies : Policies) (d : Text × Text) : Except NumberFault (List Text) :=
  match rule? (trim d.1) with
  | none => .ok []
  | some rule => rule.classes policies d.2

/-- The classes of the declarations in a list, with repetitions. -/
def classesOfList (policies : Policies) :
    List (Text × Text) → Except NumberFault (List Text)
  | [] => .ok []
  | d :: ds => do
    let here ← declarationClasses policies d
    let more ← classesOfList policies ds
    return here ++ more

/-- The classes of declarations, without repetitions. -/
def classes (policies : Policies) (ds : Declarations) : Except NumberFault (List Text) :=
  (classesOfList policies ds.entries).map List.eraseDups

/-- The declarations that contribute no class, up to the first that fails. -/
def unmatched (policies : Policies) : List (Text × Text) → List (Text × Text)
  | [] => []
  | d :: ds =>
    match declarationClasses policies d with
    | .error _ => []
    | .ok [] => d :: unmatched policies ds
    | .ok _ => unmatched policies ds

end StyleScaffold.Utility
