import StyleScaffold.Proofs.Css.CommentRemoval
import StyleScaffold.Proofs.Css.SingleBlock

/-!
# Declarations of a block and of the text it is made of

A block is made of a text by leaving out its blank lines, putting the same line break between the
others, and trimming. All of this happens before comments are taken out, so it also changes what
is in a comment, and it happens to blanks only.

* `lineDeclarations_trim`: a line is read like the trimmed line.
* `codeLines_gap`: where blanks break a line, it does not matter which blanks they are, be they in
  a comment or not.
* `declarations_blockText` (no assumption on the text): a text as a block is read like the text.
-/

namespace StyleScaffold.Css

open Text

/-! ## Blanks around a line -/

theorem declaration?_append_left {u : Text} (hu : allBlank u = true) (fragment : Text) :
    declaration? (u ++ fragment) = declaration? fragment := by
  have hColon : (':' : CodePoint) ∉ u := not_mem_of_allBlank hu (by decide)
  by_cases hMem : (':' : CodePoint) ∈ fragment
  · obtain ⟨left, right, rfl, hLeft⟩ := List.eq_append_cons_of_mem hMem
    have hBoth : (':' : CodePoint) ∉ u ++ left := by
      rw [List.mem_append, not_or]
      exact ⟨hColon, hLeft⟩
    rw [← List.append_assoc, declaration?, declaration?, halves?_append hBoth,
      halves?_append hLeft]
    dsimp only
    rw [trim_append_left hu]
  · have hBoth : (':' : CodePoint) ∉ u ++ fragment := by
      rw [List.mem_append, not_or]
      exact ⟨hColon, hMem⟩
    rw [declaration?, declaration?, halves?_of_not_mem hBoth, halves?_of_not_mem hMem]

theorem declaration?_append_right {u : Text} (hu : allBlank u = true) (fragment : Text) :
    declaration? (fragment ++ u) = declaration? fragment := by
  have hColon : (':' : CodePoint) ∉ u := not_mem_of_allBlank hu (by decide)
  by_cases hMem : (':' : CodePoint) ∈ fragment
  · obtain ⟨left, right, rfl, hLeft⟩ := List.eq_append_cons_of_mem hMem
    rw [List.append_assoc, List.cons_append, declaration?, declaration?, halves?_append hLeft,
      halves?_append hLeft]
    dsimp only
    rw [trim_append_right hu]
  · have hBoth : (':' : CodePoint) ∉ fragment ++ u := by
      rw [List.mem_append, not_or]
      exact ⟨hMem, hColon⟩
    rw [declaration?, declaration?, halves?_of_not_mem hBoth, halves?_of_not_mem hMem]

theorem bracePieces_append_left {u : Text} (hu : NoBrace u) (s : Text) :
    ∃ piece brace rest, bracePieces s = (piece, brace) :: rest ∧
      bracePieces (u ++ s) = (u ++ piece, brace) :: rest := by
  induction u with
  | nil =>
    have hne : bracePieces s ≠ [] := by
      cases s with
      | nil => simp [bracePieces]
      | cons c s =>
        unfold bracePieces
        split
        · simp
        · split <;> simp
    obtain ⟨⟨piece, brace⟩, rest, hPieces⟩ := List.exists_cons_of_ne_nil hne
    exact ⟨piece, brace, rest, hPieces, hPieces⟩
  | cons c u ih =>
    rw [noBrace_cons] at hu
    obtain ⟨piece, brace, rest, hPieces, hMore⟩ := ih hu.2
    refine ⟨piece, brace, rest, hPieces, ?_⟩
    rw [List.cons_append, bracePieces, hu.1, if_neg Bool.false_ne_true, hMore]
    rfl

theorem bracePieces_append_right {u : Text} (hu : NoBrace u) (s : Text) :
    ∃ front piece, bracePieces s = front ++ [(piece, none)] ∧
      bracePieces (s ++ u) = front ++ [(piece ++ u, none)] := by
  induction s with
  | nil => exact ⟨[], [], rfl, bracePieces_of_noBrace hu⟩
  | cons c s ih =>
    obtain ⟨front, piece, hPieces, hMore⟩ := ih
    rw [List.cons_append, bracePieces, bracePieces, hPieces, hMore]
    by_cases hc : isBrace c = true
    · rw [if_pos hc, if_pos hc]
      exact ⟨([], some c) :: front, piece, rfl, rfl⟩
    · rw [if_neg hc, if_neg hc]
      cases front with
      | nil => exact ⟨[], c :: piece, rfl, rfl⟩
      | cons first front =>
        obtain ⟨other, brace⟩ := first
        exact ⟨(c :: other, brace) :: front, piece, rfl, rfl⟩

/-- The declarations of a piece between braces that is no selector. -/
theorem filterMap_cut_append_left {u : Text} (hu : allBlank u = true) (piece : Text) :
    (cut ';' (u ++ piece)).filterMap declaration? = (cut ';' piece).filterMap declaration? := by
  obtain ⟨first, rest, hCut, hMore⟩ :=
    cut_append_left (not_mem_of_allBlank hu (c := ';') (by decide)) piece
  rw [hCut, hMore, List.filterMap_cons, List.filterMap_cons, declaration?_append_left hu]

theorem filterMap_cut_append_right {u : Text} (hu : allBlank u = true) (piece : Text) :
    (cut ';' (piece ++ u)).filterMap declaration? = (cut ';' piece).filterMap declaration? := by
  obtain ⟨front, last, hCut, hMore⟩ :=
    cut_append_right (not_mem_of_allBlank hu (c := ';') (by decide)) piece
  rw [hCut, hMore, List.filterMap_append, List.filterMap_append, List.filterMap_cons,
    List.filterMap_cons, declaration?_append_right hu]

theorem lineDeclarations_append_left {u : Text} (hu : allBlank u = true) (line : Text) :
    lineDeclarations (u ++ line) = lineDeclarations line := by
  have hNone := noBrace_of_allBlank hu
  have hAny : (u ++ line).any isBrace = line.any isBrace := by
    rw [List.any_append, any_isBrace_iff.2 hNone, Bool.false_or]
  unfold lineDeclarations fragmentsOfLine
  rw [hAny]
  split
  · obtain ⟨piece, brace, rest, hPieces, hMore⟩ := bracePieces_append_left hNone line
    rw [hPieces, hMore, List.flatMap_cons, List.flatMap_cons, List.filterMap_append,
      List.filterMap_append]
    dsimp only
    split
    · rfl
    · rw [filterMap_cut_append_left hu]
  · rw [List.filterMap_cons, List.filterMap_cons, declaration?_append_left hu]

theorem lineDeclarations_append_right {u : Text} (hu : allBlank u = true) (line : Text) :
    lineDeclarations (line ++ u) = lineDeclarations line := by
  have hNone := noBrace_of_allBlank hu
  have hAny : (line ++ u).any isBrace = line.any isBrace := by
    rw [List.any_append, any_isBrace_iff.2 hNone, Bool.or_false]
  unfold lineDeclarations fragmentsOfLine
  rw [hAny]
  split
  · obtain ⟨front, piece, hPieces, hMore⟩ := bracePieces_append_right hNone line
    rw [hPieces, hMore, List.flatMap_append, List.flatMap_append, List.filterMap_append,
      List.filterMap_append, List.flatMap_singleton, List.flatMap_singleton]
    dsimp only
    rw [if_neg (by simp), if_neg (by simp), filterMap_cut_append_right hu]
  · rw [List.filterMap_cons, List.filterMap_cons, declaration?_append_right hu]

theorem lineDeclarations_trim (line : Text) :
    lineDeclarations (trim line) = lineDeclarations line :=
  apply_trim lineDeclarations_append_left lineDeclarations_append_right line

/-! ## Blanks that break a line -/

/-- The lines of a text that are read, without the blanks at their ends. -/
def codeLines (s : Text) : List Text := (solidLines (withoutComments s)).map trim

theorem declarations_eq_codeLines (s : Text) :
    declarations s = .ofList ((codeLines s).flatMap lineDeclarations) := by
  have hTrim : (fun line => lineDeclarations (trim line)) = lineDeclarations :=
    funext lineDeclarations_trim
  rw [declarations_eq, codeLines, List.flatMap_map, hTrim]

/-- Blanks with a line break among them. -/
structure IsGap (w : Text) : Prop where
  blank : allBlank w = true
  breaks : ∃ c ∈ w, isLineBreak c = true

theorem isGap_singleton {c : CodePoint} (hc : isLineBreak c = true) : IsGap [c] where
  blank := by rw [allBlank_cons, isBlank_of_isLineBreak hc]; rfl
  breaks := ⟨c, List.mem_singleton_self c, hc⟩

theorem IsGap.ne_nil {w : Text} (h : IsGap w) : w ≠ [] := by
  obtain ⟨c, hMem, -⟩ := h.breaks
  exact List.ne_nil_of_mem hMem

theorem IsGap.append_left {w : Text} (h : IsGap w) {u : Text} (hu : allBlank u = true) :
    IsGap (u ++ w) where
  blank := by rw [allBlank_append, hu, h.blank]; rfl
  breaks := by
    obtain ⟨c, hMem, hc⟩ := h.breaks
    exact ⟨c, List.mem_append_right u hMem, hc⟩

theorem map_trim_solidLines_gap {w : Text} (h : IsGap w) (a b : Text) :
    (solidLines (a ++ (w ++ b))).map trim =
      (solidLines a).map trim ++ (solidLines b).map trim := by
  obtain ⟨c, hMem, hc⟩ := h.breaks
  obtain ⟨u, v, rfl⟩ := List.append_of_mem hMem
  obtain ⟨hu, -, hv⟩ := allBlank_append_cons_iff.1 h.blank
  have hSplit : a ++ (u ++ c :: v ++ b) = a ++ u ++ c :: (v ++ b) := by simp
  rw [hSplit, solidLines_append_break hc, List.map_append, map_trim_solidLines_append_right hu,
    map_trim_solidLines_append_left hv]

theorem codeLines_gap {w w' : Text} (h : IsGap w) (h' : IsGap w') (a b : Text) :
    codeLines (a ++ (w ++ b)) = codeLines (a ++ (w' ++ b)) := by
  unfold codeLines
  rcases withoutComments_gap a b with ⟨front, back, hEq⟩ | ⟨rest, hEq⟩
  · rw [hEq w h.ne_nil h.blank, hEq w' h'.ne_nil h'.blank, map_trim_solidLines_gap h,
      map_trim_solidLines_gap h']
  · rw [hEq w h.ne_nil h.blank, hEq w' h'.ne_nil h'.blank]

theorem codeLines_append_left {w : Text} (hw : allBlank w = true) (s : Text) :
    codeLines (w ++ s) = codeLines s := by
  rw [codeLines, withoutComments_append_left hw, map_trim_solidLines_append_left hw, codeLines]

theorem codeLines_append_right {w : Text} (hw : allBlank w = true) (s : Text) :
    codeLines (s ++ w) = codeLines s := by
  rw [codeLines, withoutComments_append_right hw, map_trim_solidLines_append_right hw, codeLines]

theorem codeLines_trim (s : Text) : codeLines (trim s) = codeLines s :=
  apply_trim codeLines_append_left codeLines_append_right s

/-! ## Texts as blocks -/

/-- Behind a gap, a text has the code lines of its joined solid lines. The induction goes from one
line break to the next, and a blank line becomes part of the gap in front of it. -/
theorem codeLines_append_join (s : Text) {w : Text} (hw : IsGap w) (a : Text) :
    codeLines (a ++ (w ++ join ['\n'] (solidLines s))) = codeLines (a ++ (w ++ s)) := by
  induction s using lineInduction generalizing a w with
  | line s hs =>
    cases hBlank : allBlank s with
    | true =>
      have hBoth : allBlank (w ++ s) = true := by rw [allBlank_append, hw.blank, hBlank]; rfl
      rw [solidLines_of_allBlank hBlank, join_nil, List.append_nil,
        codeLines_append_right hw.blank, codeLines_append_right hBoth]
    | false => rw [solidLines_of_solid hs hBlank, join_singleton]
  | lineBreak x c y hx hc ih =>
    have hBreak := isGap_singleton hc
    rw [solidLines_append_break hc]
    cases hBlank : allBlank x with
    | true =>
      have hMore : IsGap (w ++ x ++ [c]) := by
        apply hBreak.append_left
        rw [allBlank_append, hw.blank, hBlank]
        rfl
      have hSplit : w ++ (x ++ c :: y) = w ++ x ++ [c] ++ y := by simp
      rw [solidLines_of_allBlank hBlank, List.nil_append, ih hw a, hSplit,
        codeLines_gap hw hMore a y]
    | false =>
      have hSplit : a ++ (w ++ (x ++ c :: y)) = a ++ w ++ x ++ ([c] ++ y) := by simp
      rw [solidLines_of_solid hx hBlank, List.singleton_append, hSplit, ← ih hBreak]
      by_cases hNil : solidLines y = []
      · rw [hNil, join_singleton, join_nil, List.append_nil, codeLines_append_right hBreak.blank,
          ← List.append_assoc]
      · rw [join_cons hNil, codeLines_gap hBreak (isGap_singleton isLineBreak_lineFeed)]
        simp only [List.append_assoc]

theorem declarations_blockText (s : Text) : declarations (blockText s) = declarations s := by
  have hGap := isGap_singleton isLineBreak_lineFeed
  have hLines := codeLines_append_join s hGap []
  rw [List.nil_append, List.nil_append, codeLines_append_left hGap.blank,
    codeLines_append_left hGap.blank] at hLines
  rw [declarations_eq_codeLines, declarations_eq_codeLines, blockText, blockOfLines,
    codeLines_trim, hLines]

end StyleScaffold.Css
