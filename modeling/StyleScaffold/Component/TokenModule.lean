import StyleScaffold.Json.Printer

/-!
# Design tokens

Design tokens are named colours, type styles, spacings and effects. They are written as a module
of script code: one constant object with the four groups, each in indented JSON.
-/

namespace StyleScaffold

open Text

/-- Named values of one kind. -/
abbrev TokenGroup := OrderedMap Key Json

/-- The named values of a design. -/
structure DesignTokens where
  colors : TokenGroup := .empty
  typography : TokenGroup := .empty
  spacing : TokenGroup := .empty
  effects : TokenGroup := .empty

namespace Key

/-- The key as the name of a field. -/
def fieldName : Key → Text
  | .text s => s
  | k => k.toJson.scalarText

end Key

namespace DesignTokens

/-- A group as an object. -/
def groupJson (group : TokenGroup) : Json :=
  .obj (group.entries.map fun (k, v) => (k.fieldName, v))

/-- The module that holds the tokens. -/
def moduleText (tokens : DesignTokens) : Text :=
  "// Design Tokens\nexport const designTokens = \x7b\n  colors: " ++
    (groupJson tokens.colors).indented ++ ",\n  typography: " ++
    (groupJson tokens.typography).indented ++ ",\n  spacing: " ++
    (groupJson tokens.spacing).indented ++ ",\n  effects: " ++
    (groupJson tokens.effects).indented ++ "\n\x7d;"

end DesignTokens

end StyleScaffold
