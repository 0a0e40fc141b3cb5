import StyleScaffold.Text.Basic

/-!
# Terminal codes

A terminal obeys codes that stand between the printed characters: an escape character and an
opening bracket, some parameters, some fillers, and one character that ends the code. What is
not meant for a terminal is printed without complete codes; an incomplete one stays.
-/

namespace StyleScaffold.Text

/-- Whether the character may be a parameter of a terminal code. -/
def isCodeParameter (c : CodePoint) : Bool := '0' ≤ c && c ≤ '?'

/-- Whether the character may stand between the parameters and the end of a terminal code. -/
def isCodeFiller (c : CodePoint) : Bool := ' ' ≤ c && c ≤ '/'

/-- Whether the character may end a terminal code. -/
def isCodeEnd (c : CodePoint) : Bool := '@' ≤ c && c ≤ '~'

/-- What follows the terminal code whose opening has been read, if it is complete. -/
def afterCode? (s : Text) : Option Text :=
  match (s.dropWhile isCodeParameter).dropWhile isCodeFiller with
  | c :: rest => if isCodeEnd c then some rest else none
  | [] => none

theorem length_afterCode?_lt {s rest : Text} (h : afterCode? s = some rest) :
    rest.length < s.length := by
  have hParameters := (List.dropWhile_sublist isCodeParameter (l := s)).length_le
  have hFillers :=
    (List.dropWhile_sublist isCodeFiller (l := s.dropWhile isCodeParameter)).length_le
  unfold afterCode? at h
  split at h
  · rename_i hRest
    rw [hRest, List.length_cons] at hFillers
    split at h
    · rw [Option.some.injEq] at h
      subst h
      omega
    · simp at h
  · simp at h

/-- Drops the codes that terminals would obey. -/
def withoutTerminalCodes : Text → Text
  | [] => []
  | '\x1b' :: '[' :: rest =>
    match _hCode : afterCode? rest with
    | some tail => withoutTerminalCodes tail
    | none => '\x1b' :: withoutTerminalCodes ('[' :: rest)
  | c :: rest => c :: withoutTerminalCodes rest
termination_by s => s.length
decreasing_by
  · have := length_afterCode?_lt _hCode
    simp only [List.length_cons]; omega
  · simp
  · simp

end StyleScaffold.Text
