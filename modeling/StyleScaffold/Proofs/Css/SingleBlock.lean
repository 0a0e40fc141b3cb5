import StyleScaffold.Proofs.Css.BlockFactorization
import StyleScaffold.Proofs.Css.Declaration

/-!
# Texts that are one block

The scan can stop only where a line ends. A text is taken as one block when its braces are in
balance as a whole, and at no line break in it are they in balance after one was opened
(`IsOneBlock`).

* `blocks_append_break`: such a text with a line break behind it is the first block of whatever
  follows.
* `blockText_append_left`, `blockText_append_right`: as a block, a text is the same with blanks
  around it.
* `blockText_append_solid`: with anything else behind it, it is another block.
-/

namespace StyleScaffold.Css

open Text

/-- The text as one block: its solid lines, joined and trimmed. -/
def blockText (s : Text) : Text := blockOfLines (solidLines s)

/-- Wherever a line of the text is broken, no brace is opened in front of that or the braces in
front of it are out of balance. -/
def NoEarlierEnd (s : Text) : Prop :=
  ∀ a c b, s = a ++ c :: b → isLineBreak c = true → ('{' : CodePoint) ∈ a → braceBalance a ≠ 0

/-- The braces are in balance at the end of the text and at no line break before that. -/
structure IsOneBlock (s : Text) : Prop where
  opens : ('{' : CodePoint) ∈ s
  closes : braceBalance s = 0
  noEarlier : NoEarlierEnd s

/-! ## Braces of a text -/

theorem braceBalance_of_noBrace {s : Text} (h : NoBrace s) :
    braceBalance s = 0 := by
  have hOpen : ('{' : CodePoint) ∉ s := h.not_mem rfl
  have hClose : ('}' : CodePoint) ∉ s := h.not_mem rfl
  rw [braceBalance, List.count_eq_zero.2 hOpen, List.count_eq_zero.2 hClose]
  rfl

/-- No brace is on a blank line. -/
theorem braceBalance_flatten_solidLines (s : Text) :
    braceBalance (solidLines s).flatten = braceBalance s := by
  rw [braceBalance, count_flatten_solidLines (by decide), count_flatten_solidLines (by decide),
    braceBalance]

/-- So the solid lines are balanced as the text is. -/
theorem balanced_solidLines_iff {s : Text} :
    Balanced (solidLines s) ↔ ('{' : CodePoint) ∈ s ∧ braceBalance s = 0 := by
  have hOpen := count_flatten_solidLines (c := '{') (by decide) s
  rw [← braceBalance_flatten_solidLines]
  unfold braceBalance
  constructor
  · intro h
    have hPos := List.count_pos_iff.2 h.opens
    have hCount := h.closes
    exact ⟨List.count_pos_iff.1 (by omega), by omega⟩
  · rintro ⟨hMem, hZero⟩
    have hPos := List.count_pos_iff.2 hMem
    exact ⟨List.count_pos_iff.1 (by omega), by omega⟩

/-! ## The first block -/

/-- Where some but not all of the solid lines end, a line is broken. -/
theorem exists_break_of_prefix {s : Text} {p : List Text} (hPrefix : p <+: solidLines s)
    (hne : p ≠ []) (hLess : p.length < (solidLines s).length) :
    ∃ a c b, s = a ++ c :: b ∧ isLineBreak c = true ∧ solidLines a = p := by
  induction s using lineInduction generalizing p with
  | line s h =>
    have hPos := List.length_pos_iff.2 hne
    rw [solidLines_of_oneLine h] at hLess
    split at hLess
    · simp at hLess
    · simp only [List.length_singleton] at hLess
      omega
  | lineBreak a c b ha hc ih =>
    rw [solidLines_append_break hc] at hPrefix hLess
    by_cases hFirst : p = solidLines a
    · exact ⟨a, c, b, rfl, hc, hFirst.symm⟩
    -- `a` has one solid line at most, so `p` holds it and goes on behind the break
    have hLength : (solidLines a).length ≤ p.length := by
      have hPos := List.length_pos_iff.2 hne
      rw [solidLines_of_oneLine ha]
      split
      · simp
      · simp only [List.length_singleton]
        omega
    obtain ⟨q, rfl⟩ := List.prefix_of_prefix_length_le (List.prefix_append _ _) hPrefix hLength
    have hq : q <+: solidLines b := (List.prefix_append_right_inj _).1 hPrefix
    have hqNil : q ≠ [] := by
      rintro rfl
      simp at hFirst
    rw [List.length_append, List.length_append] at hLess
    obtain ⟨a', c', b', rfl, hc', hLines⟩ := ih hq hqNil (by omega)
    refine ⟨a ++ c :: a', c', b', by simp, hc', ?_⟩
    rw [solidLines_append_break hc, hLines]

/-- The lines of such a text are the first group, whatever lines come behind them. -/
theorem IsOneBlock.isShortestBalanced {s : Text} (h : IsOneBlock s) (more : List Text) :
    IsShortestBalanced (solidLines s) (solidLines s ++ more) := by
  have hBalanced : Balanced (solidLines s) := balanced_solidLines_iff.2 ⟨h.opens, h.closes⟩
  refine ⟨List.prefix_append _ _, hBalanced.ne_nil, hBalanced, ?_⟩
  intro p hPrefix hne hp
  by_cases hLength : (solidLines s).length ≤ p.length
  · exact hLength
  have hLess : p.length < (solidLines s).length := by omega
  have hShort : p <+: solidLines s :=
    List.prefix_of_prefix_length_le hPrefix (List.prefix_append _ _) (by omega)
  obtain ⟨a, c, b, hs, hc, rfl⟩ := exists_break_of_prefix hShort hne hLess
  obtain ⟨hOpen, hZero⟩ := balanced_solidLines_iff.1 hp
  exact absurd hZero (h.noEarlier a c b hs hc hOpen)

theorem groups_append {group rest : List Text} (h : IsShortestBalanced group (group ++ rest)) :
    groups (group ++ rest) = group :: groups rest := by
  obtain ⟨left, hRest⟩ := exists_factorization_groups rest
  exact (Factorization.group rfl h hRest).groups_eq

theorem blocks_append_break {s : Text} (h : IsOneBlock s) {c : CodePoint}
    (hc : isLineBreak c = true) (rest : Text) :
    blocks (s ++ c :: rest) = blockText s :: blocks rest := by
  rw [blocks, solidLines_append_break hc, groups_append (h.isShortestBalanced _)]
  rfl

theorem blocks_of_allBlank {s : Text} (hs : allBlank s = true) : blocks s = [] := by
  rw [blocks, solidLines_of_allBlank hs]
  simp [groups, firstGroup, completeGroup]

theorem blocks_of_isOneBlock {s : Text} (h : IsOneBlock s) : blocks s = [blockText s] := by
  calc
    blocks s = blocks (s ++ [.char '\n']) := by
      rw [blocks, blocks, solidLines_append_break isLineBreak_lineFeed]
      simp [solidLines, lines]
    _ = [blockText s] := by
      rw [blocks_append_break h isLineBreak_lineFeed, blocks_of_allBlank rfl]

/-! ## A text as a block -/

theorem blockText_append_left {w : Text} (hw : allBlank w = true) (s : Text) :
    blockText (w ++ s) = blockText s := by
  unfold blockText blockOfLines
  rcases solidLines_append_left hw s with hEq | ⟨u, line, rest, hu, hs, hEq⟩
  · rw [hEq]
  · rw [hEq, hs, join_append_head, trim_append_left hu]

theorem blockText_append_right {w : Text} (hw : allBlank w = true) (s : Text) :
    blockText (s ++ w) = blockText s := by
  unfold blockText blockOfLines
  rcases solidLines_append_right hw s with hEq | ⟨u, line, rest, hu, hs, hEq⟩
  · rw [hEq]
  · rw [hEq, hs, join_append_last, trim_append_right hu]

theorem count_blockText {c : CodePoint} (hc : isBlank c = false) (s : Text) :
    (blockText s).count c = s.count c := by
  rw [blockText, count_blockOfLines hc, count_flatten_solidLines hc]

theorem blockText_append_solid {w : Text} (hw : allBlank w = false) (s : Text) :
    blockText (s ++ w) ≠ blockText s := by
  obtain ⟨c, hMem, hc⟩ : ∃ c ∈ w, isBlank c = false := by
    simpa [allBlank] using hw
  intro hEq
  have hCount := congrArg (List.count c) hEq
  have hPos := List.count_pos_iff.2 hMem
  rw [count_blockText hc, count_blockText hc, List.count_append] at hCount
  omega

/-- Joined solid lines are their own block, unless a blank is at an end. -/
theorem blockText_join {ls : List Text} (h : ∀ line ∈ ls, OneLine line ∧ allBlank line = false)
    (hTrimmed : Trimmed (join ['\n'] ls)) : blockText (join ['\n'] ls) = join ['\n'] ls := by
  rw [blockText, solidLines_join_eq_self h, blockOfLines, hTrimmed.trim_eq]

/-! ## Longer texts -/

theorem noEarlierEnd_of_noBrace {s : Text} (h : NoBrace s) : NoEarlierEnd s := by
  intro a c b hs _ hOpen
  have hMem : ('{' : CodePoint) ∈ s := by
    rw [hs]
    exact List.mem_append_left _ hOpen
  exact absurd hMem (h.not_mem rfl)

theorem NoEarlierEnd.append_oneLine {s w : Text} (h : NoEarlierEnd s) (hw : OneLine w) :
    NoEarlierEnd (s ++ w) := by
  intro a c b hEq hc hOpen
  rcases append_eq_append_cons hEq with ⟨t, hs, -⟩ | ⟨t, -, hLine⟩
  · exact h a c t hs hc hOpen
  · have hNone := hw c (by simp [hLine])
    rw [hc] at hNone
    contradiction

theorem IsOneBlock.append_oneLine {s w : Text} (h : IsOneBlock s) (hw : OneLine w)
    (hBrace : NoBrace w) : IsOneBlock (s ++ w) where
  opens := List.mem_append_left w h.opens
  closes := by rw [braceBalance_append, h.closes, braceBalance_of_noBrace hBrace, Int.add_zero]
  noEarlier := h.noEarlier.append_oneLine hw

theorem blocks_append_blank {s w : Text} (h : IsOneBlock s) (hw : allBlank w = true) :
    blocks (s ++ w) = [blockText s] := by
  induction w using lineInduction with
  | line w hLine =>
    rw [blocks_of_isOneBlock (h.append_oneLine hLine (noBrace_of_allBlank hw)),
      blockText_append_right hw]
  | lineBreak a c b ha hc _ =>
    rw [allBlank_append_cons_iff] at hw
    rw [← List.append_assoc,
      blocks_append_break (h.append_oneLine ha (noBrace_of_allBlank hw.1)) hc,
      blockText_append_right hw.1, blocks_of_allBlank hw.2.2]

end StyleScaffold.Css
