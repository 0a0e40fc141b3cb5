import StyleScaffold.Text.Utf8

/-!
# Files of a run

A run of the program sees files and directories, and starts in one of the directories. A file
name leads from there, or from the root of the file system, through directories to a file. Every
step but the last has to be a directory, also one that is followed by a step back; so a name may
fail in several ways, and the first step that fails decides.

A name is made of bytes: a surrogate in it may stand for a byte that encodes nothing.
-/

namespace StyleScaffold.Command

open Text

/-- The name of a file or directory in the directory that holds it. -/
abbrev Name := List UInt8

namespace Name

/-- The name of a directory in itself. -/
def here : Name := [0x2E]

/-- The name in a directory of the one that holds it. -/
def back : Name := [0x2E, 0x2E]

def maxLength : Nat := 255

end Name

/-- The names on the way from the root of the file system to a place. -/
abbrev Path := List Name

namespace Path

/-- The most bytes in a file name and its end. -/
def lengthLimit : Nat := 4096

/-- The place to which a name leads. -/
def step (place : Path) (name : Name) : Path :=
  if name.isEmpty || name = .here then place
  else if name = .back then place.dropLast
  else place ++ [name]

/-- The names in a file name, if they have bytes. -/
def names? (fileName : Text) : Option (List Name) := (cut '/' fileName).mapM encodeEscaping?

/-- The place from which a file name leads. -/
def origin (start : Path) (fileName : Text) : Path :=
  if fileName.head? = some '/' then [] else start

/-- The places that a file name leads through, in order. -/
def along (start : Path) (fileName : Text) : List Path :=
  let names := (names? fileName).getD []
  (List.range (names.length + 1)).map fun n =>
    (names.take n).foldl step (origin start fileName)

def text (path : Path) : Text := join ['/'] (path.map decodeEscaping)

/-- The path from a directory to a place below it. -/
def below? (directory path : Path) : Option Path :=
  if directory.isPrefixOf path then some (path.drop directory.length) else none

end Path

/-- Why a file could not be read or written. -/
inductive FileFault where
  /-- A directory on the way or the file is missing. -/
  | missing
  /-- The name is that of a directory. -/
  | isDirectory
  /-- A file is on the way. -/
  | notDirectory
  /-- There are too many bytes in a name. -/
  | tooLong
  /-- A zero byte is in the name. -/
  | zeroByte
  /-- The name has no bytes. -/
  | unencodable
  deriving DecidableEq, Repr

/-- The files of a run with their bytes, directories that hold none of them, and the directory
in which the run starts. -/
structure Workspace where
  start : Path := []
  files : List (Path × List UInt8) := []
  directories : List Path := []

namespace Workspace

def file? (w : Workspace) (path : Path) : Option (List UInt8) := w.files.lookup path

/-- Whether the path is that of a directory: one on the way to the start, a listed one, or one
with a file below it. -/
def isDirectory (w : Workspace) (path : Path) : Bool :=
  path.isPrefixOf w.start || w.directories.contains path ||
    w.files.any fun f => path.isPrefixOf f.1 && path.length < f.1.length

/-- Why nothing can be found in a place, if so. -/
def enter (w : Workspace) (place : Path) : Except FileFault Unit :=
  if w.isDirectory place then .ok ()
  else .error (if (w.file? place).isSome then .notDirectory else .missing)

/-- The directory to which names lead from a place. -/
def walk (w : Workspace) (place : Path) : List Name → Except FileFault Path
  | [] => do
    w.enter place
    return place
  | name :: rest => do
    w.enter place
    if Name.maxLength < name.length then throw .tooLong
    w.walk (place.step name) rest

/-- The path of the file that a name means, whether there is such a file or not. -/
def locate (w : Workspace) (fileName : Text) : Except FileFault Path := do
  let some names := Path.names? fileName | throw .unencodable
  if fileName.contains '\x00' then throw .zeroByte
  if Path.lengthLimit < names.foldl (fun total name => total + (name.length + 1)) 0 then throw .tooLong
  if fileName.isEmpty then throw .missing
  let names := names.filter fun name => ! name.isEmpty
  let place ← w.walk (Path.origin w.start fileName) names.dropLast
  let some last := names.getLast? | throw .isDirectory
  if last = .here || last = .back || fileName.getLast? = some '/' then throw .isDirectory
  if Name.maxLength < last.length then throw .tooLong
  return place.step last

/-- The bytes of the file that a name means. -/
def read (w : Workspace) (fileName : Text) : Except FileFault (List UInt8) := do
  let path ← w.locate fileName
  match w.file? path with
  | some bytes => return bytes
  | none => throw (if w.isDirectory path then .isDirectory else .missing)

/-- The files with one of them replaced or added. -/
def put (path : Path) (bytes : List UInt8) :
    List (Path × List UInt8) → List (Path × List UInt8)
  | [] => [(path, bytes)]
  | (p, old) :: rest => if p = path then (p, bytes) :: rest else (p, old) :: put path bytes rest

/-- The workspace after writing a file. -/
def write (w : Workspace) (fileName : Text) (bytes : List UInt8) :
    Except FileFault Workspace := do
  let path ← w.locate fileName
  if w.isDirectory path then throw .isDirectory
  return { w with files := put path bytes w.files }

/-- The files that are new or have other bytes than before. -/
def changedSince (before after : Workspace) : List (Path × List UInt8) :=
  after.files.filter fun f => before.file? f.1 ≠ some f.2

end Workspace

end StyleScaffold.Command
