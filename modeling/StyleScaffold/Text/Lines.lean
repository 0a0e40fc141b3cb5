import StyleScaffold.Text.Basic

/-!
# Lines

A line ends at a line feed, a carriage return (with a line feed behind it they are one break),
a vertical tab, a form feed, one of the separators U+001C to U+001E, a next-line character, or
a Unicode line or paragraph separator. The break is not part of the line, and a break at the
end of a text opens no further line.

The narrower universal form of a text turns only `\r\n` and `\r` into `\n`.
-/

namespace StyleScaffold.Text

/-- The characters that end a line. -/
def isLineBreak (c : CodePoint) : Bool :=
  let n := c.toNat
  (0x0A ≤ n && n ≤ 0x0D) || (0x1C ≤ n && n ≤ 0x1E) || n == 0x85 || n == 0x2028 || n == 0x2029

/-- The lines with `c` put in front of the first one. -/
def extendFirst (c : CodePoint) : List Text → List Text
  | [] => [[c]]
  | line :: rest => (c :: line) :: rest

/-- The lines of a text. -/
def lines : Text → List Text
  | [] => []
  | '\r' :: '\n' :: rest => [] :: lines rest
  | c :: rest => if isLineBreak c then [] :: lines rest else extendFirst c (lines rest)

theorem mem_extendFirst {c d : CodePoint} {ls : List Text} {line : Text}
    (hLine : line ∈ extendFirst c ls) (hd : d ∈ line) :
    d = c ∨ ∃ other ∈ ls, d ∈ other := by
  cases ls with
  | nil =>
    simp only [extendFirst, List.mem_singleton] at hLine
    subst hLine
    exact Or.inl (List.mem_singleton.1 hd)
  | cons first rest =>
    simp only [extendFirst, List.mem_cons] at hLine
    rcases hLine with rfl | hRest
    · rcases List.mem_cons.1 hd with rfl | hFirst
      · exact Or.inl rfl
      · exact Or.inr ⟨first, by simp, hFirst⟩
    · exact Or.inr ⟨line, by simp [hRest], hd⟩

/-- No line holds a character that ends lines. -/
theorem not_isLineBreak_of_mem_lines {s line : Text} {c : CodePoint} (hLine : line ∈ lines s)
    (hc : c ∈ line) : isLineBreak c = false := by
  fun_induction lines s generalizing line with
  | case1 => simp at hLine
  | case2 rest ih =>
    rcases List.mem_cons.1 hLine with rfl | hRest
    · simp at hc
    · exact ih hRest hc
  | case3 d rest _ hBreak ih =>
    rcases List.mem_cons.1 hLine with rfl | hRest
    · simp at hc
    · exact ih hRest hc
  | case4 d rest _ hBreak ih =>
    rcases mem_extendFirst hLine hc with rfl | ⟨other, hOther, hMem⟩
    · simpa using hBreak
    · exact ih hOther hMem

/-- Every `\r\n` and every other `\r` becomes `\n`. -/
def universalBreaks : Text → Text
  | [] => []
  | '\r' :: '\n' :: rest => '\n' :: universalBreaks rest
  | c :: rest => (if c = '\r' then '\n' else c) :: universalBreaks rest

/-- Every `\r\n` becomes `\n`; a lone `\r` stays. -/
def joinedBreaks : Text → Text
  | [] => []
  | '\r' :: '\n' :: rest => '\n' :: joinedBreaks rest
  | c :: rest => c :: joinedBreaks rest

end StyleScaffold.Text
