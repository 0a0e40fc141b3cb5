import StyleScaffold.Proofs.Css.SingleBlock

/-!
# Blocks of texts that are put together

The scan carries nothing from one block to the next, so a block is found again wherever it is put.

* `exists_groups_append`: lines behind others continue what these leave, and change none of their
  groups.
* `groups_completingLine`: what they leave becomes a group with a line of braces behind it.
* `isOneBlock_of_mem_blocks`, `blockText_of_mem_blocks`: a block is a text of one block, which is
  the same text.
* `blocks_append_lineFeed`: what this gives for texts with a line break between them.
-/

namespace StyleScaffold.Css

open Text

/-- The solid lines of a text that belong to its blocks. -/
def blockLines (sheet : Text) : List Text := (groups (solidLines sheet)).flatten

/-! ## Lines behind lines -/

/-- What is left of the lines is cut off together with the lines behind it. -/
theorem Factorization.append {lines left more left' : List Text} {gs gs' : List (List Text)}
    (h : Factorization lines gs left) (h' : Factorization (left ++ more) gs' left') :
    Factorization (lines ++ more) (gs ++ gs') left' := by
  induction h with
  | done _ => exact h'
  | @group lines group rest left groups append shortest _ ih =>
    have hPrefix : group <+: lines ++ more := shortest.isPrefix.trans (List.prefix_append _ _)
    refine .group ?_ (shortest.of_prefix hPrefix) (ih h')
    rw [append, List.append_assoc]

theorem exists_groups_append (lines : List Text) :
    ∃ left, lines = (groups lines).flatten ++ left ∧
      (∀ p, p <+: left → p ≠ [] → ¬ Balanced p) ∧
      ∀ more, groups (lines ++ more) = groups lines ++ groups (left ++ more) := by
  obtain ⟨left, hLines⟩ := exists_factorization_groups lines
  refine ⟨left, hLines.append_eq, hLines.not_balanced_left, ?_⟩
  intro more
  obtain ⟨left', hMore⟩ := exists_factorization_groups (left ++ more)
  exact (hLines.append hMore).groups_eq

/-! ## Lines that complete what is left -/

/-- A line that opens the braces which other lines close, closes those which they open, and has a
pair of its own. -/
def completingLine (lines : List Text) : Text :=
  List.replicate (1 + lines.flatten.count (.char '}')) (.char '{') ++
    List.replicate (1 + lines.flatten.count (.char '{')) (.char '}')

theorem oneLine_completingLine (lines : List Text) : OneLine (completingLine lines) := by
  intro c hc
  rcases List.mem_append.1 hc with hc | hc
  all_goals
    rw [(List.mem_replicate.1 hc).2]
    decide

theorem allBlank_completingLine (lines : List Text) : allBlank (completingLine lines) = false := by
  rw [completingLine, Nat.add_comm, List.replicate_succ, allBlank_append, allBlank_cons]
  rfl

theorem balanced_completingLine (lines : List Text) :
    Balanced (lines ++ [completingLine lines]) where
  opens := by simp [completingLine]
  closes := by
    simp [completingLine, List.count_replicate]
    omega

/-- So a line may come behind lines that complete no group, after which they are one. -/
theorem groups_completingLine {left : List Text}
    (h : ∀ p, p <+: left → p ≠ [] → ¬ Balanced p) :
    groups (left ++ [completingLine left]) = [left ++ [completingLine left]] := by
  have hShortest : IsShortestBalanced (left ++ [completingLine left])
      (left ++ [completingLine left] ++ []) := by
    refine ⟨List.prefix_append _ _, by simp, balanced_completingLine left, ?_⟩
    intro p hPrefix hne hBalanced
    rw [List.append_nil, List.prefix_concat_iff] at hPrefix
    rcases hPrefix with rfl | hPrefix
    · exact Nat.le_refl _
    · exact absurd hBalanced (h p hPrefix hne)
  have hGroups := groups_append hShortest
  rwa [List.append_nil, show groups [] = [] from by simp [groups, firstGroup, completeGroup]]
    at hGroups

/-! ## The group of a block -/

theorem isShortestBalanced_of_mem_groups {lines group : List Text} (h : group ∈ groups lines) :
    IsShortestBalanced group group := by
  obtain ⟨left, hFactor⟩ := exists_factorization_groups lines
  generalize groups lines = gs at h hFactor
  induction hFactor with
  | done _ => cases h
  | group _ shortest _ ih =>
    rcases List.mem_cons.1 h with rfl | hMem
    · exact shortest.of_prefix (List.prefix_refl _)
    · exact ih hMem

/-- The lines of a block are lines of the text. -/
theorem solid_of_mem_groups {sheet : Text} {group : List Text}
    (h : group ∈ groups (solidLines sheet)) :
    ∀ line ∈ group, OneLine line ∧ allBlank line = false := by
  intro line hLine
  obtain ⟨left, hLines, -, -⟩ := exists_groups_append (solidLines sheet)
  have hMem : line ∈ solidLines sheet := by
    rw [hLines]
    exact List.mem_append_left _ (List.mem_flatten.2 ⟨group, h, hLine⟩)
  exact ⟨oneLine_of_mem_solidLines hMem, solid_of_mem_solidLines hMem⟩

theorem allBlank_of_solidLines_eq_nil {s : Text} (h : solidLines s = []) : allBlank s = true := by
  rw [allBlank_iff]
  intro c hc
  cases hSolid : isBlank c with
  | true => rfl
  | false =>
    have hCount := count_flatten_solidLines hSolid s
    rw [h] at hCount
    exact absurd hc (List.count_eq_zero.1 hCount.symm)

/-- The joined lines of a group end the block no earlier than at their end: the lines in front of a
break are fewer, as solid lines follow. -/
theorem isOneBlock_blockOfLines {group : List Text} (h : IsShortestBalanced group group)
    (hSolid : ∀ line ∈ group, OneLine line ∧ allBlank line = false) :
    IsOneBlock (blockOfLines group) := by
  have hOpen := count_blockOfLines (c := '{') (by decide) group
  have hClose := count_blockOfLines (c := '}') (by decide) group
  have hOpens := List.count_pos_iff.2 h.balanced.opens
  have hCloses := h.balanced.closes
  refine ⟨List.count_pos_iff.1 (by omega), by rw [braceBalance]; omega, ?_⟩
  intro a c b hEq hc hMem hZero
  obtain ⟨u, v, hu, hv, hJoin⟩ := exists_trim (join ['\n'] group)
  have hLines : solidLines (u ++ a) ++ solidLines (b ++ v) = group := by
    rw [← solidLines_append_break hc, ← solidLines_join_eq_self hSolid, hJoin, ← blockOfLines, hEq]
    simp only [List.append_assoc, List.cons_append]
  have hBalanced : Balanced (solidLines (u ++ a)) := by
    rw [balanced_solidLines_iff, braceBalance_append,
      braceBalance_of_noBrace (noBrace_of_allBlank hu), hZero]
    exact ⟨List.mem_append_right u hMem, rfl⟩
  have hLength := h.least _ ⟨_, hLines⟩ hBalanced.ne_nil hBalanced
  have hNil : solidLines (b ++ v) = [] := by
    have hAll := congrArg List.length hLines
    rw [List.length_append] at hAll
    exact List.length_eq_zero_iff.1 (by omega)
  have hBlank := allBlank_of_solidLines_eq_nil hNil
  rw [allBlank_append, Bool.and_eq_true] at hBlank
  have hTrimmed : Trimmed (a ++ c :: b) := hEq ▸ trimmed_trim _
  have hBehind := hTrimmed.solid_of_append (by simp)
  rw [allBlank_cons, isBlank_of_isLineBreak hc, hBlank.1] at hBehind
  contradiction

/-! ## Blocks by themselves -/

theorem isOneBlock_of_mem_blocks {sheet block : Text} (h : block ∈ blocks sheet) :
    IsOneBlock block := by
  obtain ⟨group, hGroup, rfl⟩ := List.mem_map.1 h
  exact isOneBlock_blockOfLines (isShortestBalanced_of_mem_groups hGroup)
    (solid_of_mem_groups hGroup)

theorem blockText_of_mem_blocks {sheet block : Text} (h : block ∈ blocks sheet) :
    blockText block = block := by
  obtain ⟨group, hGroup, rfl⟩ := List.mem_map.1 h
  calc
    blockText (blockOfLines group) = blockText (join ['\n'] group) :=
      apply_trim blockText_append_left blockText_append_right _
    _ = blockOfLines group := by
      rw [blockText, solidLines_join_eq_self (solid_of_mem_groups hGroup)]

/-- Texts of one block that are joined are found again. -/
theorem blocks_join {bs : List Text} (h : ∀ block ∈ bs, IsOneBlock block) :
    blocks (join ['\n'] bs) = bs.map blockText := by
  induction bs with
  | nil => exact blocks_of_allBlank rfl
  | cons block rest ih =>
    rw [List.forall_mem_cons] at h
    by_cases hRest : rest = []
    · subst hRest
      exact blocks_of_isOneBlock h.1
    · rw [join_cons hRest, List.append_assoc, List.singleton_append,
        blocks_append_break h.1 isLineBreak_lineFeed, ih h.2, List.map_cons]

/-- No character but a blank is in a block more often than in the text. -/
theorem count_le_of_mem_blocks {sheet block : Text} (h : block ∈ blocks sheet) {c : CodePoint}
    (hc : isBlank c = false) : block.count c ≤ sheet.count c := by
  obtain ⟨group, hGroup, rfl⟩ := List.mem_map.1 h
  obtain ⟨left, hLines, -, -⟩ := exists_groups_append (solidLines sheet)
  have hFlatten : group.flatten.Sublist (solidLines sheet).flatten := by
    rw [hLines, List.flatten_append, List.flatten_flatten]
    exact (List.sublist_flatten_of_mem (List.mem_map_of_mem hGroup)).trans
      (List.sublist_append_left _ _)
  rw [count_blockOfLines hc, ← count_flatten_solidLines hc sheet]
  exact hFlatten.count_le c

/-- A line that completes other lines is no block with them when it stands alone. -/
theorem blocks_completingLine_ne {left : List Text} (hne : left ≠ [])
    (hSolid : ∀ line ∈ left, allBlank line = false) :
    blocks (completingLine left) ≠ [blockOfLines (left ++ [completingLine left])] := by
  intro hBlocks
  obtain ⟨line, rest, rfl⟩ := List.exists_cons_of_ne_nil hne
  obtain ⟨c, hc, hChar⟩ := List.all_eq_false.1 (hSolid line List.mem_cons_self)
  rw [Bool.not_eq_true] at hChar
  have hCount := count_le_of_mem_blocks (hBlocks ▸ List.mem_singleton_self _) hChar
  have hPos := List.count_pos_iff.2 hc
  rw [count_blockOfLines hChar, List.cons_append, List.flatten_cons, List.flatten_append,
    List.count_append, List.count_append, List.flatten_singleton] at hCount
  omega

/-- What stands behind a text on lines of its own leaves the blocks of the text what they are. The
blocks behind them are those of what stands there, whatever that is, exactly if every solid line of
the text belongs to a block. The blocks of a text, joined, have the same blocks. -/
theorem blocks_append_lineFeed (t : Text) :
    (∀ s, blocks t <+: blocks (t ++ .char '\n' :: s)) ∧
      (blockLines t = solidLines t ↔
        ∀ s, blocks (t ++ .char '\n' :: s) = blocks t ++ blocks s) ∧
      blocks (join [.char '\n'] (blocks t)) = blocks t := by
  obtain ⟨left, hLeft, hNone, hGroups⟩ := exists_groups_append (solidLines t)
  have hBlocks : ∀ s, blocks (t ++ .char '\n' :: s) =
      blocks t ++ (groups (left ++ solidLines s)).map blockOfLines := by
    intro s
    rw [blocks, solidLines_append_break isLineBreak_lineFeed, hGroups, List.map_append, blocks]
  refine ⟨?_, ⟨?_, ?_⟩, ?_⟩
  · intro s
    rw [hBlocks]
    exact List.prefix_append _ _
  · intro hAll s
    rw [← blockLines, hAll] at hLeft
    have hNil : left = [] := by simpa using hLeft
    rw [hBlocks, hNil, List.nil_append, ← blocks]
  · intro hEach
    rw [blockLines]
    by_cases hNil : left = []
    · rw [hNil, List.append_nil] at hLeft
      exact hLeft.symm
    have hSolid := solidLines_of_solid (oneLine_completingLine left) (allBlank_completingLine left)
    have hLast := hEach (completingLine left)
    rw [hBlocks, hSolid, groups_completingLine hNone, List.append_cancel_left_eq,
      List.map_singleton] at hLast
    refine absurd hLast.symm (blocks_completingLine_ne hNil ?_)
    intro line hLine
    apply solid_of_mem_solidLines (s := t)
    rw [hLeft]
    exact List.mem_append_right _ hLine
  · rw [blocks_join fun block h => isOneBlock_of_mem_blocks h]
    conv => rhs; rw [← List.map_id (blocks t)]
    exact List.map_congr_left fun block h => blockText_of_mem_blocks h

end StyleScaffold.Css
