import StyleScaffold.Proofs.Css.BlockDeclarations
import StyleScaffold.Proofs.Css.Unfinished
import StyleScaffold.Proofs.Except
import StyleScaffold.Stylesheet

/-!
# Comments in a stylesheet

What is in a comment is not read, but its braces and its line breaks are seen where the text is
cut into blocks. So the content of a comment can make a difference in four ways
(`not_readings_commentText`): its braces are out of balance, it opens the only brace of its line,
a block ends inside of it, or a block has ended inside of a comment in front of it.

* `readings_congr`: the declarations of the blocks determine what is read.
* `readings_commentText`: where none of the four is the case, the content makes no difference.
-/

namespace StyleScaffold

open Text Css

/-- The declarations and the classes of every block, in order. -/
def readings (policies : Policies) (sheet : Text) :
    Except StylesheetFault (List (Declarations × List Text)) :=
  (convertStylesheet policies sheet).map (List.map fun b => (b.declarations, b.classes))

/-- A comment with this content ends no block that would not end without the content: `begun` is
in front of it in its block, and `line` behind it on its last line. -/
structure KeepsBlocks (begun content line : Text) : Prop where
  balanced : braceBalance content = 0
  noEnd : NoEarlierEnd (begun ++ "/*" ++ content)
  opens : EndsBlock (begun ++ commentText content ++ line) → ('{' : CodePoint) ∈ begun ++ line

/-- The text in front of the first line break. -/
def firstLine (s : Text) : Text := s.takeWhile fun c => ! isLineBreak c

/-! ## What is read from the blocks -/

theorem convertBlock_map (policies : Policies) (block : Text) :
    (convertBlock policies block).map (fun b => (b.declarations, b.classes)) =
      ((Utility.classes policies (declarations block)).mapError .number).map
        fun classes => (declarations block, classes) := by
  rw [convertBlock]
  cases (Utility.classes policies (declarations block)).mapError StylesheetFault.number with
  | error e => rfl
  | ok classes => rfl

theorem readings_congr {s t : Text} (hBlank : allBlank s = allBlank t)
    (hBlocks : (blocks s).map declarations = (blocks t).map declarations) (policies : Policies) :
    readings policies s = readings policies t := by
  have hEmpty : (blocks s).isEmpty = (blocks t).isEmpty := by
    simpa using congrArg List.isEmpty hBlocks
  have hRead : ∀ bs : List Text,
      (bs.mapM (convertBlock policies)).map (List.map fun b => (b.declarations, b.classes)) =
        (bs.map declarations).mapM fun ds =>
          ((Utility.classes policies ds).mapError .number).map fun classes => (ds, classes) := by
    intro bs
    rw [map_mapM, List.mapM_map]
    simp only [convertBlock_map]
    rfl
  unfold readings convertStylesheet requiredBlocks
  rw [hBlank, hEmpty]
  split
  · rfl
  · split
    · rfl
    · exact (hRead _).trans ((congrArg _ hBlocks).trans (hRead _).symm)

/-! ## Comments that are seen -/

/-- The content of the comment makes a difference, although the comment begins behind `u` and ends
in front of `v`. -/
def IsSeen (u content v : Text) : Prop :=
  insideComment u = false ∧ afterComment? content = none ∧
    readings {} (u ++ commentText content ++ v) ≠ readings {} (u ++ commentText [] ++ v)

/-- What is read, as lists of texts, or nothing where there is a fault. -/
def readTexts (sheet : Text) : Option (List (List (Text × Text) × List Text)) :=
  (readings {} sheet).toOption.map (List.map fun b => (b.1.entries, b.2))

theorem isSeen_of_readTexts {u content v : Text} (hOpens : insideComment u = false)
    (hContent : afterComment? content = none)
    (h : readTexts (u ++ commentText content ++ v) ≠ readTexts (u ++ commentText [] ++ v)) :
    IsSeen u content v := by
  refine ⟨hOpens, hContent, ?_⟩
  intro hEq
  apply h
  unfold readTexts
  rw [hEq]

/-- A brace that is not closed, a rule, a line break behind a rule, and a slash behind such a line
break: none of them closes the comment, and all of them are seen. -/
theorem not_readings_commentText :
    IsSeen "a\x7bcolor:red" "\x7b" "\x7d" ∧ IsSeen "" "\x7b\x7d" "\na\x7bx:y\x7d" ∧
      IsSeen "a\x7bx:y\x7d" "p:q\n" "" ∧
        IsSeen "a\x7bx:y\x7d/*\n/*/" "/p:q" "\nb\x7bz:w\x7d" := by
  refine ⟨isSeen_of_readTexts ?_ ?_ ?_, isSeen_of_readTexts ?_ ?_ ?_, isSeen_of_readTexts ?_ ?_ ?_,
    isSeen_of_readTexts ?_ ?_ ?_⟩
  all_goals decide +kernel

/-! ## A comment in a block -/

theorem commentText_eq_append (content : Text) :
    commentText content = "/*" ++ content ++ "*/" := rfl

theorem braceBalance_commentText (content : Text) :
    braceBalance (commentText content) = braceBalance content := by
  have hOpening : braceBalance "/*" = 0 := by decide
  have hClosing : braceBalance "*/" = 0 := by decide
  rw [commentText_eq_append, braceBalance_append, braceBalance_append, hOpening, hClosing]
  omega

theorem oneLine_commentText_nil : OneLine (commentText []) := by decide

/-- Where no brace is opened, none are left open. -/
theorem braceBalance_le_zero {s : Text} (h : ('{' : CodePoint) ∉ s) : braceBalance s ≤ 0 := by
  have hCount := List.count_eq_zero.2 h
  unfold braceBalance
  omega

section KeepsBlocks

variable {begun content line : Text} (h : KeepsBlocks begun content line)
include h

/-- Behind the last line of the comment, a block ends where it ends without the content. -/
theorem KeepsBlocks.endsBlock_iff (rest : Text) :
    EndsBlock (begun ++ commentText content ++ line ++ rest) ↔
      EndsBlock (begun ++ commentText [] ++ line ++ rest) := by
  have hBalance : braceBalance (begun ++ commentText content ++ line ++ rest) =
      braceBalance (begun ++ commentText [] ++ line ++ rest) := by
    simp only [braceBalance_append, braceBalance_commentText, h.balanced, braceBalance_nil]
  constructor
  · rintro ⟨hOpen, hZero⟩
    refine ⟨?_, hBalance.symm.trans hZero⟩
    by_cases hOther : ('{' : CodePoint) ∈ begun ++ line ++ rest
    · simp only [List.mem_append] at hOther ⊢
      rcases hOther with (hMem | hMem) | hMem <;> simp [hMem]
    -- only the content opens a brace, so none is closed outside and the block ends on this line
    · rw [List.mem_append, not_or] at hOther
      have hFront := braceBalance_le_zero hOther.1
      have hBack := braceBalance_le_zero hOther.2
      rw [List.mem_append, or_iff_left hOther.2] at hOpen
      simp only [braceBalance_append, braceBalance_commentText, h.balanced] at hZero hFront
      have hEnd : braceBalance (begun ++ commentText content ++ line) = 0 := by
        simp only [braceBalance_append, braceBalance_commentText, h.balanced]
        omega
      exact absurd (h.opens ⟨hOpen, hEnd⟩) hOther.1
  · rintro ⟨hOpen, hZero⟩
    refine ⟨?_, hBalance.trans hZero⟩
    have hNone : ('{' : CodePoint) ∉ commentText [] := by decide
    simp only [List.mem_append, hNone, or_false] at hOpen ⊢
    rcases hOpen with (hMem | hMem) | hMem <;> simp [hMem]

theorem KeepsBlocks.map_blocks {α : Type} {read : Text → α} (hBegun : NoEarlierEnd begun)
    (hLine : OneLine line)
    (hRead : ∀ t, read (blockText (begun ++ commentText content ++ t)) =
      read (blockText (begun ++ commentText [] ++ t))) (rest : Text) :
    (blocks (begun ++ commentText content ++ line ++ rest)).map read =
      (blocks (begun ++ commentText [] ++ line ++ rest)).map read := by
  have hClosing : OneLine ("*/" : Text) := by decide
  have hFull : NoEarlierEnd (begun ++ commentText content) := by
    rw [commentText_eq_append, ← List.append_assoc, ← List.append_assoc]
    exact h.noEnd.append_oneLine hClosing
  have hEmpty : NoEarlierEnd (begun ++ commentText []) :=
    hBegun.append_oneLine oneLine_commentText_nil
  apply map_blocks_append_congr (hFull.append_oneLine hLine) (hEmpty.append_oneLine hLine)
    h.endsBlock_iff
  intro t
  rw [List.append_assoc _ line, List.append_assoc _ line, hRead]

end KeepsBlocks

theorem declarations_commentText {begun content : Text} (hBegun : insideComment begun = false)
    (hContent : afterComment? content = none) (rest : Text) :
    declarations (blockText (begun ++ commentText content ++ rest)) =
      declarations (blockText (begun ++ commentText [] ++ rest)) := by
  rw [declarations_blockText, declarations_blockText, declarations_eq, declarations_eq,
    List.append_assoc, List.append_assoc, withoutComments_commentText hBegun hContent,
    withoutComments_commentText hBegun rfl]

theorem allBlank_append_commentText (u content v : Text) :
    allBlank (u ++ commentText content ++ v) = false := by
  have hOpening : allBlank "/*" = false := by decide
  rw [commentText_eq_append]
  simp only [allBlank_append, hOpening, Bool.and_false, Bool.false_and]

/-- In a comment that ends no block, everything but a closing can stand in place of nothing: the
declarations and classes of every block are the same, and so is the fault if there is one. -/
theorem readings_commentText (policies : Policies) {u c v : Text}
    (hOpens : insideComment (unfinished u) = false) (hContent : afterComment? c = none)
    (hBlocks : KeepsBlocks (unfinished u) c (firstLine v)) :
    readings policies (u ++ commentText c ++ v) =
      readings policies (u ++ commentText [] ++ v) := by
  refine readings_congr ?_ ?_ policies
  · rw [allBlank_append_commentText, allBlank_append_commentText]
  obtain ⟨done, hDone⟩ := exists_blocks_unfinished u
  have hLine : OneLine (firstLine v) := by
    intro d hd
    simpa using List.all_eq_true.1 List.all_takeWhile d hd
  have hRest : v = firstLine v ++ v.dropWhile fun d => ! isLineBreak d :=
    List.takeWhile_append_dropWhile.symm
  have hSame := hBlocks.map_blocks (noEarlierEnd_unfinished u) hLine
    (declarations_commentText hOpens hContent) (v.dropWhile fun d => ! isLineBreak d)
  simp only [List.append_assoc] at hSame ⊢
  rw [← hRest] at hSame
  rw [hDone, hDone, List.map_append, List.map_append, hSame]

/-- The content is a rule over two lines, in a rule that is not closed behind one that is. -/
theorem readings_commentText_behindBlock :
    insideComment (unfinished "b\x7b\x7d\na\x7bx:y") = false ∧
      afterComment? "\x7bp:q\n\x7d" = none ∧
      KeepsBlocks (unfinished "b\x7b\x7d\na\x7bx:y") "\x7bp:q\n\x7d" (firstLine ";\n\x7d") ∧
      readings {} ("b\x7b\x7d\na\x7bx:y" ++ commentText "\x7bp:q\n\x7d" ++ ";\n\x7d") =
        readings {} ("b\x7b\x7d\na\x7bx:y" ++ commentText [] ++ ";\n\x7d") := by
  have hOpens : insideComment (unfinished "b\x7b\x7d\na\x7bx:y") = false := by decide +kernel
  have hContent : afterComment? "\x7bp:q\n\x7d" = none := by decide
  have hBlocks : KeepsBlocks (unfinished "b\x7b\x7d\na\x7bx:y") "\x7bp:q\n\x7d"
      (firstLine ";\n\x7d") :=
    ⟨by decide, by decide +kernel, by decide +kernel⟩
  exact ⟨hOpens, hContent, hBlocks, readings_commentText {} hOpens hContent hBlocks⟩

end StyleScaffold
