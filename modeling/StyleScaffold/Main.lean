import StyleScaffold.Command.Builtin

/-!
# The program

The outermost layer finds out what surrounds the run, lets the run be computed, and carries out
what its outcome says. The program has no connection to a network of its own.
-/

namespace StyleScaffold.Program

open Command

/-- The environment variables that the program looks at. -/
def variableNames : List String :=
  ["FIGWIND_COLOR_POLICY", "FIGWIND_SPACING_POLICY", "FIGWIND_DEFAULT_NAME", "FIGMA_TOKEN",
    "FIGMA_API_BASE"]

/-- The variables that are set. -/
def environment : IO Environment := do
  let found ← variableNames.filterMapM fun name => do
    return (← IO.getEnv name).map fun value => (Text.ofString name, Text.ofString value)
  return .ofList found

/-- The file names in an invocation. -/
def fileNames (i : Invocation) : List Text :=
  match i.task with
  | .convert source _ output _ => source :: output.toList
  | .analyze source _ | .overlong source => [source]
  | .design _ _ _ output _ => output.toList
  | _ => []

/-- The name of a path from the root of the file system. -/
def absolute (path : Path) : String := "/" ++ path.text.string

/-- The workspace with what is found in a place. -/
def look (w : Workspace) (place : Path) : IO Workspace := do
  let name := System.mkFilePath [absolute place]
  if ← name.isDir then
    return { w with directories := place :: w.directories }
  else if ← name.pathExists then
    return { w with files := (place, (← IO.FS.readBinFile name).toList) :: w.files }
  else return w

/-- Writes what the run printed and changed. -/
def carryOut (before : Workspace) (o : Outcome) : IO UInt32 := do
  for (path, bytes) in Workspace.changedSince before o.workspace do
    IO.FS.writeBinFile (absolute path) ⟨bytes.toArray⟩
  (← IO.getStdout).putStr o.output.string
  (← IO.getStderr).putStr o.errors.string
  if o.crash.isSome then (← IO.getStderr).putStrLn "The run could not be finished."
  return UInt32.ofNat o.exitCode

end StyleScaffold.Program

open StyleScaffold Command in
/-- Runs the program on the words of its command line. -/
def main (words : List String) : IO UInt32 := do
  let line := words.map Text.ofString
  let environment ← Program.environment
  let names := ((Invocation.parse? environment line).map Program.fileNames).getD []
  let start := ((Path.along [] (Text.ofString (← IO.currentDir).toString)).getLast?).getD []
  let workspace ← (names.flatMap (Path.along start)).foldlM Program.look { start }
  let input ← if names.contains ['-'] then (← IO.getStdin).readBinToEnd else pure .empty
  let world : World :=
    { environment, input := input.toList, workspace
      replies := [.unreachable "no network"] }
  Program.carryOut workspace (run world line)
