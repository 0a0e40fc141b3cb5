import StyleScaffold.Text.Blank
import StyleScaffold.Text.Lines
import StyleScaffold.Text.Quoted

/-!
# Blocks

A stylesheet is cut into blocks at the ends of lines. A block is the shortest group of lines
that are not blank in which a brace is opened and as many braces are closed as opened; the next
group starts on the line behind it. Lines at the end that complete no group belong to no block.
-/

namespace StyleScaffold.Css

open Text

/-- The braces opened in a text less the braces closed in it. -/
def braceBalance (s : Text) : Int :=
  (s.count ('{' : CodePoint) : Int) - s.count ('}' : CodePoint)

@[simp] theorem braceBalance_nil : braceBalance [] = 0 := rfl

theorem braceBalance_append (s t : Text) :
    braceBalance (s ++ t) = braceBalance s + braceBalance t := by
  simp only [braceBalance, List.count_append]
  omega

/-- The shortest group of lines that completes what `balance` and `opened` say of the lines in
front of it, and the lines behind it. -/
def completeGroup (balance : Int) (opened : Bool) :
    List Text → Option (List Text × List Text)
  | [] => none
  | line :: rest =>
    if balance + braceBalance line = 0 ∧ (opened || line.contains '{') = true then
      some ([line], rest)
    else
      (completeGroup (balance + braceBalance line) (opened || line.contains '{') rest).map
        fun (group, rest) => (line :: group, rest)

/-- The first group of lines with its braces in balance, and the lines behind it. -/
def firstGroup (lines : List Text) : Option (List Text × List Text) := completeGroup 0 false lines

theorem append_of_completeGroup {balance : Int} {opened : Bool} {lines group rest : List Text}
    (h : completeGroup balance opened lines = some (group, rest)) :
    lines = group ++ rest ∧ group ≠ [] := by
  induction lines generalizing balance opened group with
  | nil => simp [completeGroup] at h
  | cons line more ih =>
    unfold completeGroup at h
    split at h
    · simp only [Option.some.injEq, Prod.mk.injEq] at h
      simp [← h.1, h.2]
    · rw [Option.map_eq_some_iff] at h
      obtain ⟨⟨g, r⟩, hg, he⟩ := h
      simp only [Prod.mk.injEq] at he
      obtain ⟨rfl, rfl⟩ := he
      simp [(ih hg).1]

/-- A completed group closes as many braces as are open in front of it and in it, and a brace is
opened in it unless one was before. -/
theorem balance_of_completeGroup {balance : Int} {opened : Bool} {lines group rest : List Text}
    (h : completeGroup balance opened lines = some (group, rest)) :
    balance + braceBalance group.flatten = 0 ∧
      (opened || group.any (·.contains '{')) = true := by
  induction lines generalizing balance opened group with
  | nil => simp [completeGroup] at h
  | cons line more ih =>
    unfold completeGroup at h
    split at h
    · rename_i hDone
      simp only [Option.some.injEq, Prod.mk.injEq] at h
      rw [← h.1]
      simpa using hDone
    · rw [Option.map_eq_some_iff] at h
      obtain ⟨⟨g, r⟩, hg, he⟩ := h
      simp only [Prod.mk.injEq] at he
      obtain ⟨rfl, rfl⟩ := he
      obtain ⟨hBalance, hOpened⟩ := ih hg
      constructor
      · rw [List.flatten_cons, braceBalance_append]
        omega
      · simpa [Bool.or_assoc] using hOpened

/-- The groups of lines with their braces in balance. -/
def groups (lines : List Text) : List (List Text) :=
  match _found : firstGroup lines with
  | none => []
  | some (group, rest) => group :: groups rest
termination_by lines.length
decreasing_by
  obtain ⟨hAppend, hGroup⟩ := append_of_completeGroup _found
  rw [hAppend, List.length_append]
  have := List.length_pos_iff.2 hGroup
  omega

/-- The lines of a text that are not blank. -/
def solidLines (s : Text) : List Text := (lines s).filter fun line => ! allBlank line

/-- A group of lines as one block. -/
def blockOfLines (group : List Text) : Text := trim (join ['\n'] group)

/-- The blocks of a stylesheet. -/
def blocks (sheet : Text) : List Text := (groups (solidLines sheet)).map blockOfLines

/-- The blocks seen by a reader who stops after `count` of them, and at the first one even when
`count` is zero. -/
def leadingBlocks (count : Nat) (sheet : Text) : List Text := (blocks sheet).take (max count 1)

/-- The text in front of a block's first brace: its lines trimmed and joined by spaces, without
the blank ones and the ones that start with a comment. -/
def blockSelector (block : Text) : Text :=
  let heads := ((lines (before '{' block)).map trim).filter fun line => ! line.isEmpty
  join [' '] (heads.filter fun line => ! startsWith "/*" line)

/-- A short description of the blocks of a stylesheet, with the start of its text. -/
def blocksLabel (sheet : Text) : Text := "BlockSequence(" ++ quoted (sheet.take 40) ++ ")"

end StyleScaffold.Css
