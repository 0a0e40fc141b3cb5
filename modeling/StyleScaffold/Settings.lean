import StyleScaffold.Json.Display
import StyleScaffold.Stylesheet

/-!
# Settings

The settings of the program come from the environment, with a default for each. A policy that is
named must be one of the known ones; an empty name is not.
-/

namespace StyleScaffold

open Text

/-- A policy name that names no policy. -/
inductive PolicyFault where
  | color (given : Json)
  | spacing (given : Json)

namespace PolicyFault

/-- The words for an unknown policy. -/
def message : PolicyFault → Text
  | .color given => given.literal ++ " is not a valid ColorPolicy"
  | .spacing given => given.literal ++ " is not a valid SpacingPolicy"

end PolicyFault

/-- The colour policy that a value names. -/
def ColorPolicy.ofJson (v : Json) : Except PolicyFault ColorPolicy :=
  match v with
  | .str s =>
    match ofName? s with
    | some p => .ok p
    | none => .error (.color v)
  | _ => .error (.color v)

/-- The spacing policy that a value names. -/
def SpacingPolicy.ofJson (v : Json) : Except PolicyFault SpacingPolicy :=
  match v with
  | .str s =>
    match ofName? s with
    | some p => .ok p
    | none => .error (.spacing v)
  | _ => .error (.spacing v)

/-- Names with values that a program finds when it starts. -/
abbrev Environment := OrderedMap Text Text

/-- What can be chosen outside a call. -/
structure Settings where
  conversion : ConversionSettings := {}
  token : Text := []
  apiBase : Text := "https://api.figma.com/v1"
  /-- How many seconds a request may take. -/
  timeout : Binary64 := .ofRatio false 30 1
  host : Text := "127.0.0.1"
  /-- The number of the socket that the service listens on. -/
  socket : Int := 5000

namespace Settings

/-- The settings that an environment asks for. -/
def ofEnvironment (env : Environment) : Except PolicyFault Settings := do
  let base : Settings := {}
  let color ←
    match env.get? "FIGWIND_COLOR_POLICY" with
    | some name => ColorPolicy.ofJson (.str name)
    | none => pure base.conversion.policies.color
  let spacing ←
    match env.get? "FIGWIND_SPACING_POLICY" with
    | some name => SpacingPolicy.ofJson (.str name)
    | none => pure base.conversion.policies.spacing
  return { base with
    conversion :=
      ⟨⟨color, spacing⟩,
        (env.get? "FIGWIND_DEFAULT_NAME").getD base.conversion.defaultName⟩
    token := (env.get? "FIGMA_TOKEN").getD base.token
    apiBase := (env.get? "FIGMA_API_BASE").getD base.apiBase }

end Settings

end StyleScaffold
