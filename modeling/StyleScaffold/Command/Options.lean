import StyleScaffold.Text.Basic

/-!
# Options of a command line

A command line holds options and arguments. A long option starts with two hyphens; its value
follows behind an equals sign or as the next word, whatever that looks like. Short options are
letters behind one hyphen and may stand together; the value of one is the rest of its word, or
the next word. Two hyphens alone end the options, and one hyphen alone is an argument.
-/

namespace StyleScaffold.Command

open Text

/-- An option: all its spellings, the first of which names it, and whether it has a value. -/
structure OptionSpec where
  spellings : List Text
  hasValue : Bool

namespace OptionSpec

def name (o : OptionSpec) : Text := o.spellings.headD []

def switch (spellings : List String) : OptionSpec := ⟨spellings.map Text.ofString, false⟩

def valued (spellings : List String) : OptionSpec := ⟨spellings.map Text.ofString, true⟩

end OptionSpec

/-- The option with a spelling. -/
def findOption (specs : List OptionSpec) (spelling : Text) : Option OptionSpec :=
  specs.find? fun o => o.spellings.contains spelling

/-- What one word of options says: the options given, and the one that still lacks its value. -/
structure OptionWord where
  given : List (Text × Text) := []
  pending : Option Text := none

/-- The options in the letters behind one hyphen. -/
def readLetters (specs : List OptionSpec) : Text → Option OptionWord
  | [] => some {}
  | c :: rest =>
    match findOption specs ['-', c] with
    | none => none
    | some o =>
      if o.hasValue then
        some (if rest.isEmpty then { pending := some o.name } else { given := [(o.name, rest)] })
      else
        (readLetters specs rest).map fun word =>
          { word with given := (o.name, []) :: word.given }

/-- The option in a word with two hyphens. -/
def readLong (specs : List OptionSpec) (word : Text) : Option OptionWord :=
  let (spelling, value) : Text × Option Text :=
    match halves? '=' word with
    | some (left, right) => (left, some right)
    | none => (word, none)
  match findOption specs spelling, value with
  | none, _ => none
  | some o, some value => if o.hasValue then some { given := [(o.name, value)] } else none
  | some o, none =>
    some (if o.hasValue then { pending := some o.name } else { given := [(o.name, [])] })

/-- The options in a word that starts with a hyphen. -/
def readWord (specs : List OptionSpec) (word : Text) : Option OptionWord :=
  if startsWith "--" word then readLong specs word else readLetters specs word.tail

/-- A command line taken apart: the options in the order in which they were given, and the
arguments. -/
structure Arguments where
  options : List (Text × Text) := []
  words : List Text := []

namespace Arguments

/-- The value that was given last for an option. -/
def value? (a : Arguments) (name : Text) : Option Text := a.options.reverse.lookup name

def has (a : Arguments) (name : Text) : Bool := (a.value? name).isSome

/-- The command line with options in front. -/
def withOptions (given : List (Text × Text)) (a : Arguments) : Arguments :=
  { a with options := given ++ a.options }

def withWord (word : Text) (a : Arguments) : Arguments := { a with words := word :: a.words }

/-- Takes a command line apart. Where arguments and options do not mix, everything behind the
first argument is an argument. Unknown options and options without their values are refused. -/
def read (specs : List OptionSpec) (mixed : Bool) : List Text → Option Arguments
  | [] => some {}
  | word :: rest =>
    if word = "--" then some { words := rest }
    else if startsWith "-" word && word ≠ "-" then
      match readWord specs word with
      | none => none
      | some ⟨given, none⟩ => (read specs mixed rest).map (withOptions given)
      | some ⟨given, some name⟩ =>
        match rest with
        | [] => none
        | value :: rest => (read specs mixed rest).map (withOptions (given ++ [(name, value)]))
    else if mixed then (read specs mixed rest).map (withWord word)
    else some { words := word :: rest }

end Arguments

end StyleScaffold.Command
