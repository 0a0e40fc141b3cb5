import StyleScaffold.Command.Invocation
import StyleScaffold.Command.Run
import StyleScaffold.Remote.Address
import StyleScaffold.Text.TerminalCode

/-!
# The built-in libraries

The program brings along what it leaves to libraries: a reader for its command line, lines that are
printed without terminal codes, and addresses.

The reader ends a run with the exit code 2 where it refuses the line or cannot read the source, and
with a crash where the name of the source cannot even be looked up.
-/

namespace StyleScaffold.Command

open Text

def versionText : Text := "figwind, version 0.1.0"

def usageText : Text := "Usage: figwind [-v] convert|analyze|figma|serve ...\n"

/-- The text as a line without terminal codes. -/
def printed (s : Text) : Text := withoutTerminalCodes s ++ "\n"

/-- How a run ends whose command line is refused. -/
def refusal : Ending := { exitCode := 2, errors := usageText }

/-- The bytes of a source: the standard input for a hyphen, and otherwise a file. -/
def source (w : World) (name : Text) : Except FileFault (List UInt8) :=
  if name = "-" then .ok w.input else w.workspace.read name

/-- How a run ends whose source cannot be read: the line is refused, unless the name of the source
could not even be looked up. -/
def unread (f : FileFault) : Ending :=
  match f with
  | .zeroByte | .unencodable => { exitCode := 1, crash := some (.file f) }
  | _ => refusal

/-- What an invocation comes to. -/
def Invocation.reading (w : World) (i : Invocation) : Reading :=
  match i.task with
  | .showVersion => .ended { output := printed versionText }
  | .showUsage => .ended { output := usageText }
  | .convert name format output overrides =>
    match source w name with
    | .ok bytes => .order i.verbose (.convert bytes format output overrides)
    | .error f => .ended (unread f)
  | .analyze name minified =>
    match source w name with
    | .ok bytes => .order i.verbose (.analyze bytes minified)
    | .error f => .ended (unread f)
  | .overlong name =>
    match source w name with
    | .ok _ => .ended refusal
    | .error f => .ended (unread f)
  | .design url token tokens output overrides =>
    .order i.verbose (.design url token tokens output overrides)
  | .serve host socket => .order i.verbose (.serve host socket)

/-- What a command line comes to. -/
def readLine (w : World) (line : List Text) : Reading :=
  match Invocation.parse? w.environment line with
  | some i => i.reading w
  | none => .ended refusal

/-- The libraries that the program brings along. -/
def builtin : Library where
  read := readLine
  line := printed
  connect := Remote.connect
  answered address status :=
    reportLine "INFO" "httpx" ("HTTP Request: GET " ++ address ++ " \"HTTP/1.1 " ++ ofInt status ++
      " " ++ Remote.phrase status ++ "\"")

/-- The outcome of a command line. -/
def run (w : World) (line : List Text) : Outcome := builtin.run w line

end StyleScaffold.Command
