import StyleScaffold.Text.Blank
import StyleScaffold.Text.Ascii
import StyleScaffold.Text.Percent
import StyleScaffold.Text.Quoted

/-!
# Links to designs

A link names a file by its key, and perhaps a node by a parameter of its query. Links write the
two numbers of a node's identifier with a hyphen between them, where documents have a colon.
-/

namespace StyleScaffold.Design

open Text

/-- A file and perhaps a node in it. -/
structure Link where
  fileKey : Text
  nodeId : Option Text
  deriving DecidableEq

namespace Link

/-- The ways in which a file is opened. -/
def openings : List Text := ["design", "file", "proto"]

/-- The file key in an address. -/
def fileKey? (url : Text) : Option Text := do
  let rest ← strip? "https://" url
  let rest := (strip? "www." rest).getD rest
  let rest ← strip? "figma.com/" rest
  let rest ← openings.findSome? fun opening => strip? (opening ++ "/") rest
  (run? isAsciiAlnum rest).map Prod.fst

/-- The parameter for the node, at the start of a text. -/
def nodeParameter? : Text → Option Text
  | [] => none
  | c :: rest =>
    if c = '?' || c = '&' then do
      let rest ← strip? "node-id=" rest
      (run? (fun c => c ≠ '&' && c ≠ '#') rest).map Prod.fst
    else none

/-- The identifier that a parameter writes. -/
def nodeIdOf (parameter : Text) : Text :=
  (percentDecode parameter).map fun (c : CodePoint) => if c = '-' then ':' else c

/-- The link that an address is, blanks around it aside. -/
def parse? (url : Text) : Option Link :=
  (fileKey? (trim url)).map fun key => ⟨key, (firstMatch nodeParameter? url).map nodeIdOf⟩

def faultMessage (url : Text) : Text := "Invalid Figma URL: " ++ quoted url

end Link

end StyleScaffold.Design
