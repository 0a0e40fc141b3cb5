import StyleScaffold.Command.Workspace
import StyleScaffold.Json.Access
import StyleScaffold.Json.Parser
import StyleScaffold.Remote.Message
import StyleScaffold.Settings

/-!
# What the program leaves to libraries

The program does not take its command line apart, it does not print lines on its own, and it does
not find addresses: libraries do. From a command line comes an order, with the bytes of its source
at hand. A library may also end the run itself, as it does with lines that it cannot understand and
with those that only ask for help. In none of these cases does reading a line change a file.

What is proved of runs holds for every `Library`. Where more is needed, it is that lines are printed
as documented (`Library.PrintsLines`).
-/

namespace StyleScaffold.Command

open Text Remote

/-- What a conversion prints. -/
inductive Format where
  | react
  | html
  | css
  | classes
  | blocks
  | json
  deriving DecidableEq, Repr

/-- Policies that take the place of those in the settings. -/
structure Overrides where
  color : Option ColorPolicy := none
  spacing : Option SpacingPolicy := none

namespace Overrides

/-- The policies with the overrides in place. -/
def apply (o : Overrides) (p : Policies) : Policies :=
  ⟨o.color.getD p.color, o.spacing.getD p.spacing⟩

end Overrides

/-- What the program is asked to do. -/
inductive Order where
  /-- A stylesheet as a component, or block by block. -/
  | convert (source : List UInt8) (format : Format) (output : Option Text) (overrides : Overrides)
  /-- What a stylesheet defines, or its shortest form. -/
  | analyze (source : List UInt8) (minified : Bool)
  /-- The components or the tokens of a design. -/
  | design (url token : Text) (tokens : Bool) (output : Option Text) (overrides : Overrides)
  | serve (host : Option Text) (socket : Option Int)

/-- What a run finds. -/
structure World where
  environment : Environment := .empty
  input : List UInt8 := []
  workspace : Workspace := {}
  replies : List Reply := []
  /-- How deeply the body of a reply may be nested. -/
  nesting : Nat := Json.nesting

/-- Why a run ended early without a word. -/
inductive Crash where
  | number (fault : NumberFault)
  | data (fault : DataFault)
  | file (fault : FileFault)
  | address (fault : AddressFault)
  /-- There are too many arrays and objects inside each other in an answer. -/
  | tooDeep
  /-- There is half of a surrogate pair in what should be printed or written. -/
  | unencodable
  /-- The input is no text. -/
  | notText
  /-- Something was asked of a closed session. -/
  | closed
  deriving DecidableEq, Repr

/-- How a run ends, and what it has printed. -/
structure Ending where
  exitCode : Nat := 0
  crash : Option Crash := none
  output : Text := []
  errors : Text := []

/-- What a command line comes to: an order, and whether the program reports its steps, or the end of
the run. -/
inductive Reading where
  | order (verbose : Bool) (order : Order)
  | ended (ending : Ending)

/-- What the program leaves to libraries. -/
structure Library where
  /-- Takes a command line apart. -/
  read : World → List Text → Reading
  /-- What is printed for a line of text. -/
  line : Text → Text
  /-- Finds the endpoints below a base, to which a token is sent. -/
  connect : (base token : Text) → Except AddressFault Locator
  /-- What is reported of an answer from an address. -/
  answered : (address : Text) → (status : Int) → Text

end StyleScaffold.Command
