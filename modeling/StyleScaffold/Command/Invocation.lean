import StyleScaffold.Command.Library
import StyleScaffold.Command.Options
import StyleScaffold.Number.Literal

/-!
# Invocations

The words of a command line become one of the things that the program does. A line that asks for
nothing, or for something that the program does not know, is refused.
-/

namespace StyleScaffold.Command

open Text

/-- The formats with their names. -/
def Format.names : List (Text × Format) :=
  [("react", react), ("html", html), ("css", css), ("classes", classes), ("blocks", blocks),
    ("json", json)]

def Format.ofName? (name : Text) : Option Format := names.lookup name

/-- What the program is asked to do. -/
inductive Task where
  | showVersion
  | showUsage
  /-- A stylesheet as a component, or block by block. -/
  | convert (source : Text) (format : Format) (output : Option Text) (overrides : Overrides)
  /-- What a stylesheet defines, or its shortest form. -/
  | analyze (source : Text) (minified : Bool)
  /-- The components or the tokens of a design. -/
  | design (url token : Text) (tokens : Bool) (output : Option Text) (overrides : Overrides)
  | serve (host : Option Text) (socket : Option Int)
  /-- Nothing, since arguments follow the source; but the source is looked at. -/
  | overlong (source : Text)

/-- A task, and whether the program reports its steps. -/
structure Invocation where
  verbose : Bool
  task : Task

/-- A value that may be missing but not wrong. -/
def optionalValue {α : Type} (a : Arguments) (name : Text) (read : Text → Option α) :
    Option (Option α) :=
  match a.value? name with
  | none => some none
  | some s => (read s).map some

namespace Task

/-- The option that asks for help. -/
def helpOption : OptionSpec := .switch ["--help"]

def policyOptions : List OptionSpec := [.valued ["--color-policy"], .valued ["--spacing-policy"]]

def outputOption : OptionSpec := .valued ["--output", "-o"]

/-- The policies given by options. -/
def overrides? (a : Arguments) : Option Overrides := do
  let color ← optionalValue a "--color-policy" ColorPolicy.ofName?
  let spacing ← optionalValue a "--spacing-policy" SpacingPolicy.ofName?
  return ⟨color, spacing⟩

/-- A task for the source that is the only argument. -/
def onSource? (a : Arguments) (task : Text → Task) : Option Task :=
  match a.words with
  | [] => none
  | [source] => some (task source)
  | source :: _ => some (.overlong source)

/-- A conversion. -/
def convert? (a : Arguments) : Option Task := do
  let format ← optionalValue a "--format" Format.ofName?
  let overrides ← overrides? a
  onSource? a fun source => .convert source (format.getD .react) (a.value? "--output") overrides

/-- An analysis. -/
def analyze? (a : Arguments) : Option Task :=
  onSource? a fun source => .analyze source (a.has "--minify")

/-- A look at a design. The token comes from an option, or from an environment where it is not
empty. -/
def design? (env : Environment) (a : Arguments) : Option Task := do
  let [url] := a.words | none
  let token ←
    match a.value? "--token" with
    | some token => some token
    | none => (env.get? "FIGMA_TOKEN").filter fun s => ! s.isEmpty
  return .design url token (a.has "--tokens") (a.value? "--output") (← overrides? a)

/-- The start of the service. -/
def serve? (a : Arguments) : Option Task := do
  if a.words.isEmpty then
    let socket ← optionalValue a "--port" Literal.integer?
    return .serve (a.value? "--host") socket
  else none

/-- The options of a command and how its line becomes a task. -/
def command? (env : Environment) (name : Text) :
    Option (List OptionSpec × (Arguments → Option Task)) :=
  if name = "convert" then
    some (.valued ["--format"] :: outputOption :: policyOptions, convert?)
  else if name = "analyze" then some ([.switch ["--minify"]], analyze?)
  else if name = "figma" then
    some (.valued ["--token"] :: .switch ["--tokens"] :: outputOption :: policyOptions,
      design? env)
  else if name = "serve" then
    some ([.valued ["--host"], .valued ["--port"], .switch ["--debug", "--no-debug"]], serve?)
  else none

/-- The task of a command with the words behind its name. -/
def ofCommand? (env : Environment) (name : Text) (words : List Text) : Option Task := do
  let (specs, task?) ← command? env name
  let a ← Arguments.read (helpOption :: specs) true words
  if a.has "--help" then return .showUsage else task? a

end Task

namespace Invocation

/-- The options in front of the command. -/
def leadingOptions : List OptionSpec :=
  [.switch ["--version"], .switch ["--verbose", "-v"], Task.helpOption]

/-- The options that are tasks of their own; the first of them decides. -/
def immediateTasks : List (Text × Task) := [("--version", .showVersion), ("--help", .showUsage)]

/-- The task that decides by itself what the options in front ask for. -/
def immediateTask? (a : Arguments) : Option Task :=
  a.options.findSome? (immediateTasks.lookup ·.1)

/-- The invocation that a command line writes. Where the first argument names no command, it may
still be an option behind two hyphens. -/
def parse? (env : Environment) (line : List Text) : Option Invocation := do
  let a ← Arguments.read leadingOptions false line
  match immediateTask? a, a.words with
  | some task, _ => return ⟨false, task⟩
  | none, [] => none
  | none, name :: words =>
    if (Task.command? env name).isSome then
      return ⟨a.has "--verbose", ← Task.ofCommand? env name words⟩
    else
      return ⟨false, ← immediateTask? (← Arguments.read leadingOptions false (name :: words))⟩

end Invocation

end StyleScaffold.Command
