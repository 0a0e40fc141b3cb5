import StyleScaffold.Proofs.Stylesheet.Comment
import StyleScaffold.Proofs.Text.Collapse

/-!
# Comments in front of a selector

A line of a selector is taken for a comment by how it starts. So a comment in front of a rule hides
what the rule has on the last line of the comment, and it adds to the selector every line of its
own that starts with no opening.

* `exists_selectorLines_append`: where two texts meet, only the line on which they meet is a new
  one.
* `join_append_inj`: what is joined in front of the same texts can be told apart.
* `not_blockSelector_comment`: a comment on the line of the selector hides it.
* `blockSelector_comment_iff` (no assumption on the rule): a comment makes no difference exactly
  when it adds what it hides, and for every rule exactly when it does neither.
-/

namespace StyleScaffold.Css

open Text

/-- The trimmed lines of a text that are not taken for comments. -/
def selectorLines (s : Text) : List Text :=
  ((solidLines s).map trim).filter fun line => ! startsWith "/*" line

/-- The text behind the last line break. -/
def lastLine (s : Text) : Text := (s.reverse.takeWhile (! isLineBreak ·)).reverse

/-- The line starts with the opening of a comment, blanks in front of it aside. -/
def StartsOpening (line : Text) : Prop := startsWith "/*" (trim line) = true

instance (line : Text) : Decidable (StartsOpening line) :=
  inferInstanceAs (Decidable (_ = _))

/-! ## Lines of a selector -/

theorem blockSelector_eq (block : Text) :
    blockSelector block = join [' '] (selectorLines (before '{' block)) := by
  have hTrim : ∀ line : Text, (! (trim line).isEmpty) = ! allBlank line := by
    intro line
    rw [Bool.eq_iff_iff, Bool.not_eq_true', Bool.not_eq_true', List.isEmpty_eq_false_iff, ne_eq,
      trim_eq_nil_iff, Bool.not_eq_true]
  rw [blockSelector, selectorLines, solidLines, List.filter_map]
  simp only [Function.comp_def, hTrim]

theorem mem_selectorLines_ne_nil {s line : Text} (h : line ∈ selectorLines s) : line ≠ [] := by
  obtain ⟨solid, hSolid, rfl⟩ := List.mem_map.1 (List.mem_filter.1 h).1
  rw [ne_eq, trim_eq_nil_iff, solid_of_mem_solidLines hSolid]
  exact Bool.false_ne_true

theorem selectorLines_append_break {c : CodePoint} (hc : isLineBreak c = true) (a b : Text) :
    selectorLines (a ++ c :: b) = selectorLines a ++ selectorLines b := by
  rw [selectorLines, solidLines_append_break hc, List.map_append, List.filter_append]
  rfl

theorem selectorLines_append_left {w : Text} (hw : allBlank w = true) (s : Text) :
    selectorLines (w ++ s) = selectorLines s := by
  rw [selectorLines, map_trim_solidLines_append_left hw, selectorLines]

theorem selectorLines_of_allBlank {s : Text} (hs : allBlank s = true) : selectorLines s = [] := by
  rw [selectorLines, solidLines_of_allBlank hs]
  rfl

theorem selectorLines_of_solid {s : Text} (h : OneLine s) (hs : allBlank s = false) :
    selectorLines s = if StartsOpening s then [] else [trim s] := by
  rw [selectorLines, solidLines_of_solid h hs, List.map_singleton]
  by_cases hStart : StartsOpening s
  · rw [if_pos hStart, List.filter_cons_of_neg (by simpa [StartsOpening] using hStart),
      List.filter_nil]
  · rw [if_neg hStart, List.filter_cons_of_pos (by simpa [StartsOpening] using hStart),
      List.filter_nil]

theorem selectorLines_eq_nil_iff {s : Text} :
    selectorLines s = [] ↔ ∀ line ∈ solidLines s, StartsOpening line := by
  simp [selectorLines, StartsOpening, List.filter_eq_nil_iff]

/-! ## Where two texts meet -/

theorem oneLine_firstLine (s : Text) : OneLine (firstLine s) := by
  intro c hc
  simpa using List.all_eq_true.1 List.all_takeWhile c hc

theorem oneLine_lastLine (s : Text) : OneLine (lastLine s) := by
  intro c hc
  simpa using List.all_eq_true.1 List.all_takeWhile c (List.mem_reverse.1 hc)

theorem lastLine_append {t : Text} (ht : OneLine t) (s : Text) :
    lastLine (s ++ t) = lastLine s ++ t := by
  have hTail : ∀ c ∈ t.reverse, (! isLineBreak c) = true := by
    intro c hc
    rw [ht c (List.mem_reverse.1 hc)]
    rfl
  rw [lastLine, List.reverse_append, List.takeWhile_append_of_pos hTail, List.reverse_append,
    List.reverse_reverse, lastLine]

theorem firstLine_append {s : Text} (hs : OneLine s) (t : Text) :
    firstLine (s ++ t) = s ++ firstLine t :=
  List.takeWhile_append_of_pos fun c hc => by rw [hs c hc]; rfl

theorem firstLine_append_break {s : Text} (hs : OneLine s) {c : CodePoint}
    (hc : isLineBreak c = true) (t : Text) : firstLine (s ++ c :: t) = s := by
  rw [firstLine_append hs, firstLine, List.takeWhile_cons_of_neg (by simp [hc]), List.append_nil]

theorem exists_firstLine (s : Text) :
    s = firstLine s ∨ ∃ c rest, isLineBreak c = true ∧ s = firstLine s ++ c :: rest := by
  have hAppend : firstLine s ++ s.dropWhile (! isLineBreak ·) = s :=
    List.takeWhile_append_dropWhile
  cases hDrop : s.dropWhile (! isLineBreak ·) with
  | nil =>
    rw [hDrop, List.append_nil] at hAppend
    exact Or.inl hAppend.symm
  | cons c rest =>
    have hHead := List.head?_dropWhile_not (! isLineBreak ·) s
    rw [hDrop] at hAppend hHead
    exact Or.inr ⟨c, rest, by simpa using hHead, hAppend.symm⟩

theorem exists_lastLine (s : Text) :
    s = lastLine s ∨ ∃ front c, isLineBreak c = true ∧ s = front ++ c :: lastLine s := by
  rcases exists_firstLine s.reverse with hLine | ⟨c, rest, hc, hLine⟩
  · exact Or.inl (by simpa [lastLine, firstLine] using congrArg List.reverse hLine)
  · exact Or.inr ⟨rest.reverse, c, hc, by
      simpa [lastLine, firstLine] using congrArg List.reverse hLine⟩

/-- What comes behind a text begins on its last line. -/
theorem exists_selectorLines_lastLine (s : Text) :
    ∃ front, ∀ t, selectorLines (s ++ t) = front ++ selectorLines (lastLine s ++ t) := by
  rcases exists_lastLine s with hLine | ⟨a, c, hc, hLine⟩
  · exact ⟨[], fun t => by rw [← hLine, List.nil_append]⟩
  · refine ⟨selectorLines a, fun t => ?_⟩
    calc
      selectorLines (s ++ t) = selectorLines (a ++ c :: (lastLine s ++ t)) := by
        rw [← List.cons_append, ← List.append_assoc, ← hLine]
      _ = selectorLines a ++ selectorLines (lastLine s ++ t) := selectorLines_append_break hc a _

/-- What is in front of a text ends on its first line. -/
theorem exists_selectorLines_firstLine (t : Text) :
    ∃ back, ∀ s, selectorLines (s ++ t) = selectorLines (s ++ firstLine t) ++ back := by
  rcases exists_firstLine t with hLine | ⟨c, b, hc, hLine⟩
  · exact ⟨[], fun s => by rw [← hLine, List.append_nil]⟩
  · refine ⟨selectorLines b, fun s => ?_⟩
    calc
      selectorLines (s ++ t) = selectorLines (s ++ firstLine t ++ c :: b) := by
        rw [List.append_assoc, ← hLine]
      _ = selectorLines (s ++ firstLine t) ++ selectorLines b := selectorLines_append_break hc _ b

/-! ## Joined lines -/

theorem join_eq_nil_iff {sep : Text} {pieces : List Text} (h : ∀ piece ∈ pieces, piece ≠ []) :
    join sep pieces = [] ↔ pieces = [] := by
  constructor
  · intro hJoin
    cases pieces with
    | nil => rfl
    | cons first rest =>
      refine absurd ?_ (h first List.mem_cons_self)
      cases rest with
      | nil => exact hJoin
      | cons second rest =>
        rw [join_cons_cons, List.append_eq_nil_iff, List.append_eq_nil_iff] at hJoin
        exact hJoin.1.1
  · rintro rfl
    exact join_nil sep

/-- Texts that are joined in front of the same ones can be told apart. -/
theorem join_append_inj {sep : Text} (hSep : sep ≠ []) {a b : List Text}
    (ha : ∀ piece ∈ a, piece ≠ []) (hb : ∀ piece ∈ b, piece ≠ []) (c : List Text) :
    join sep (a ++ c) = join sep (b ++ c) ↔ join sep a = join sep b := by
  have hLonger : ∀ {d : List Text}, d ≠ [] → c ≠ [] → join sep (d ++ c) ≠ join sep c := by
    intro d hd hc hEq
    rw [join_append hd hc] at hEq
    have hLength := congrArg List.length hEq
    have hPos := List.length_pos_iff.2 hSep
    simp only [List.length_append] at hLength
    omega
  by_cases hc : c = []
  · rw [hc, List.append_nil, List.append_nil]
  by_cases haNil : a = [] <;> by_cases hbNil : b = []
  · rw [haNil, hbNil]
    exact iff_of_true rfl rfl
  · rw [haNil, List.nil_append, join_nil, eq_comm, eq_comm (a := []), join_eq_nil_iff hb]
    exact iff_of_false (hLonger hbNil hc) hbNil
  · rw [hbNil, List.nil_append, join_nil, join_eq_nil_iff ha]
    exact iff_of_false (hLonger haNil hc) haNil
  · rw [join_append haNil hc, join_append hbNil hc, List.append_left_inj]

/-! ## The last line of a comment -/

theorem lastLine_commentText (x : Text) :
    lastLine (commentText x) = lastLine ("/*" ++ x) ++ "*/" := lastLine_append (by decide) _

/-- Whether a line starts with an opening is known at its first closing. -/
theorem startsOpening_append_closing (s t : Text) :
    StartsOpening (s ++ ("*/" ++ t)) ↔ StartsOpening (s ++ "*/") := by
  have hTrim : ∀ u : Text, trim (s ++ ("*/" ++ u)) =
      trimLeft s ++ .char '*' :: .char '/' :: trimRight u := by
    intro u
    have hText : (s ++ ("*/" ++ u) : Text) = s ++ .char '*' :: .char '/' :: u := rfl
    rw [hText, trim, trimLeft_append_cons (by decide),
      trimRight_append_solid (by rw [allBlank_cons]; rfl), trimRight_cons_of_solid (by decide),
      trimRight_cons_of_solid (by decide)]
  -- Two characters are compared, and there are two in front of what is cut off.
  have hStarts : ∀ front back : Text,
      startsWith "/*" (front ++ .char '*' :: .char '/' :: back) =
        startsWith "/*" (front ++ [.char '*', .char '/']) := by
    intro front back
    cases front with
    | nil => rfl
    | cons c front =>
      cases front with
      | nil => by_cases hc : CodePoint.char '/' = c <;> simp [startsWith, strip?, ofString, hc]
      | cons d front =>
        by_cases hc : CodePoint.char '/' = c <;> by_cases hd : CodePoint.char '*' = d <;>
          simp [startsWith, strip?, ofString, hc, hd]
  have hClosing : (s ++ "*/" : Text) = s ++ ("*/" ++ ([] : Text)) := rfl
  rw [StartsOpening, StartsOpening, hClosing, hTrim, hTrim, hStarts,
    hStarts (trimLeft s) (trimRight [])]

/-! ## Comments and rules -/

theorem before_append_of_not_mem {sep : CodePoint} {s : Text} (h : sep ∉ s) (t : Text) :
    before sep (s ++ t) = s ++ before sep t :=
  List.takeWhile_append_of_pos (ne_of_not_mem h)

theorem before_firstLine (sep : CodePoint) (s : Text) :
    before sep (firstLine s) = firstLine (before sep s) := by
  unfold before firstLine
  induction s with
  | nil => rfl
  | cons c s ih =>
    by_cases hSep : c = sep <;> cases hBreak : isLineBreak c <;> simp_all

theorem openingBrace_not_mem_commentText {x : Text} (hx : ('{' : CodePoint) ∉ x) :
    ('{' : CodePoint) ∉ commentText x := by
  have hOpening : ('{' : CodePoint) ∉ ("/*" : Text) := by decide
  have hClosing : ('{' : CodePoint) ∉ ("*/" : Text) := by decide
  simp only [commentText, List.mem_append, not_or]
  exact ⟨⟨hOpening, hx⟩, hClosing⟩

/-- The lines of one line of text hold no more slashes than the text. -/
theorem count_selectorLines_le {s : Text} (h : OneLine s) :
    (selectorLines s).flatten.count ('/' : CodePoint) ≤ s.count ('/' : CodePoint) := by
  cases hs : allBlank s with
  | true =>
    rw [selectorLines_of_allBlank hs]
    exact Nat.zero_le _
  | false =>
    rw [selectorLines_of_solid h hs]
    split
    · exact Nat.zero_le _
    · exact Nat.le_of_eq (by rw [List.flatten_singleton, count_trim (by decide)])

/-- What follows on the last line of a comment is hidden with it or shown with it. -/
theorem selectorLines_lastLine_append (x : Text) {u : Text} (hu : OneLine u) :
    selectorLines (lastLine (commentText x) ++ u) =
      if StartsOpening (lastLine (commentText x)) then []
      else [trim (lastLine (commentText x) ++ u)] := by
  have hSolid : allBlank (lastLine (commentText x) ++ u) = false := by
    rw [lastLine_commentText, List.append_assoc]
    exact allBlank_append_solid (by decide) _ _
  rw [selectorLines_of_solid ((oneLine_lastLine _).append hu) hSolid]
  simp only [lastLine_commentText, List.append_assoc, startsOpening_append_closing]

/-- A line that is shown with the end of a comment in front of it is not the line alone. -/
theorem join_selectorLines_ne {x u : Text} (hStart : ¬ StartsOpening (lastLine (commentText x)))
    (hu : OneLine u) (front : List Text) :
    join [' '] (front ++ selectorLines (lastLine (commentText x) ++ u)) ≠
      join [' '] (selectorLines u) := by
  intro hSame
  -- The slash of the closing is one more.
  have hCount := congrArg (List.count ('/' : CodePoint)) hSame
  have hClosing : 0 < (lastLine (commentText x)).count ('/' : CodePoint) := by
    rw [lastLine_commentText, List.count_pos_iff]
    exact List.mem_append_right _ (by decide)
  have hLess := count_selectorLines_le hu
  rw [selectorLines_lastLine_append x hu, if_neg hStart, count_join (by decide),
    count_join (by decide), List.flatten_append, List.flatten_singleton, List.count_append,
    count_trim (by decide), List.count_append] at hCount
  omega

/-- In front of a text, a comment adds what is on its own lines, and what it hides is on the first
line of the text. -/
theorem join_selectorLines_commentText_iff (x t : Text) :
    join [' '] (selectorLines (commentText x ++ t)) = join [' '] (selectorLines t) ↔
      StartsOpening (lastLine (commentText x)) ∧
        join [' '] (selectorLines (commentText x)) = join [' '] (selectorLines (firstLine t)) := by
  obtain ⟨front, hFront⟩ := exists_selectorLines_lastLine (commentText x)
  obtain ⟨back, hBack⟩ := exists_selectorLines_firstLine t
  have hComment : selectorLines (commentText x) =
      front ++ selectorLines (lastLine (commentText x)) := by
    simpa only [List.append_nil] using hFront []
  have hRule : selectorLines t = selectorLines (firstLine t) ++ back := hBack []
  have hLine : OneLine (firstLine t) := oneLine_firstLine t
  have hNonempty : ∀ line ∈ front ++ selectorLines (lastLine (commentText x) ++ firstLine t),
      line ≠ [] := by
    intro line hMem
    rw [← hFront] at hMem
    exact mem_selectorLines_ne_nil hMem
  rw [hFront, hBack, hRule, ← List.append_assoc,
    join_append_inj (by decide) hNonempty (fun _ => mem_selectorLines_ne_nil) back]
  by_cases hStart : StartsOpening (lastLine (commentText x))
  · have hAlone := selectorLines_lastLine_append x (u := []) (by simp [OneLine])
    rw [List.append_nil] at hAlone
    rw [hComment, selectorLines_lastLine_append x hLine, hAlone, if_pos hStart, if_pos hStart,
      and_iff_right hStart]
  · exact iff_of_false (join_selectorLines_ne hStart hLine front) (fun h => hStart h.1)

theorem blockSelector_append_left {w : Text} (hw : allBlank w = true) (r : Text) :
    blockSelector (w ++ r) = blockSelector r := by
  have hBrace : ('{' : CodePoint) ∉ w := not_mem_of_allBlank hw (by decide)
  rw [blockSelector_eq, before_append_of_not_mem hBrace, selectorLines_append_left hw,
    blockSelector_eq]

theorem blockSelector_eq_nil_iff {s : Text} (h : ('{' : CodePoint) ∉ s) :
    blockSelector s = [] ↔ ∀ line ∈ solidLines s, StartsOpening line := by
  rw [blockSelector_eq, before_of_not_mem h, ← selectorLines_eq_nil_iff,
    join_eq_nil_iff fun _ => mem_selectorLines_ne_nil]

theorem startsOpening_lastLine {x : Text} (hx : ('{' : CodePoint) ∉ x)
    (h : blockSelector (commentText x) = []) : StartsOpening (lastLine (commentText x)) := by
  refine Classical.byContradiction fun hStart => ?_
  obtain ⟨front, hFront⟩ := exists_selectorLines_lastLine (commentText x)
  have hLines := hFront []
  rw [selectorLines_lastLine_append x (by simp [OneLine]), if_neg hStart, List.append_nil] at hLines
  rw [blockSelector_eq, before_of_not_mem (openingBrace_not_mem_commentText hx),
    join_eq_nil_iff (fun _ => mem_selectorLines_ne_nil), hLines] at h
  simp at h

theorem blockSelector_commentText_iff {x : Text} (hx : ('{' : CodePoint) ∉ x) (t : Text) :
    blockSelector (commentText x ++ t) = blockSelector t ↔
      StartsOpening (lastLine (commentText x)) ∧
        blockSelector (commentText x) = blockSelector (firstLine t) := by
  have hComment := openingBrace_not_mem_commentText hx
  rw [blockSelector_eq, blockSelector_eq, blockSelector_eq, blockSelector_eq,
    before_append_of_not_mem hComment, before_of_not_mem hComment, before_firstLine]
  exact join_selectorLines_commentText_iff x (before '{' t)

/-- A comment on the line of a selector. -/
theorem not_blockSelector_comment :
    ¬ ∀ x w r : Text, NoBrace x → holds "*/" x = false → allBlank w = true →
      hasComment r = false → blockSelector (commentText x ++ (w ++ r)) = blockSelector r := by
  intro h
  have hButton := h " Button " " " ".btn \x7b gap: 4px; \x7d" (by decide) (by decide) (by decide)
    (by decide)
  exact absurd hButton (by decide +kernel)

/-- A comment with blanks behind it makes no difference to the selector exactly when its last line
starts with its or another opening and what its lines add to the selector is what was on that line
of the rule. So it makes none in front of any rule exactly when a line is broken behind it and none
of its lines is taken for a part of the selector. -/
theorem blockSelector_comment_iff {x w : Text} (hx : ('{' : CodePoint) ∉ x)
    (hw : allBlank w = true) :
    (∀ r, blockSelector (commentText x ++ (w ++ r)) = blockSelector r ↔
        StartsOpening (lastLine (commentText x)) ∧
          blockSelector (commentText x) = blockSelector (firstLine (w ++ r))) ∧
      ((∀ r, hasComment r = false →
          blockSelector (commentText x ++ (w ++ r)) = blockSelector r) ↔
        (∃ c ∈ w, isLineBreak c = true) ∧
          ∀ line ∈ solidLines (commentText x), StartsOpening line) := by
  have hRule : ∀ r, blockSelector (commentText x ++ (w ++ r)) = blockSelector r ↔
      StartsOpening (lastLine (commentText x)) ∧
        blockSelector (commentText x) = blockSelector (firstLine (w ++ r)) := by
    intro r
    rw [← blockSelector_append_left hw r]
    exact blockSelector_commentText_iff hx (w ++ r)
  refine ⟨hRule, ?_⟩
  rw [← blockSelector_eq_nil_iff (openingBrace_not_mem_commentText hx)]
  rcases exists_firstLine w with hLine | ⟨c, rest, hc, hLine⟩
  · -- On the line of the comment a rule may have a selector or none.
    have hOne : OneLine w := hLine ▸ oneLine_firstLine w
    have hNone : ¬ ∃ c ∈ w, isLineBreak c = true := by
      rintro ⟨c, hMem, hc⟩
      rw [hOne c hMem] at hc
      cases hc
    refine iff_of_false (fun h => ?_) (fun h => hNone h.1)
    have hFound := (hRule "a\x7b").1 (h _ (by decide))
    have hEmpty := (hRule "\x7b").1 (h _ (by decide))
    rw [firstLine_append hOne, blockSelector_append_left hw] at hFound hEmpty
    exact absurd (hFound.2.symm.trans hEmpty.2) (by decide +kernel)
  · have hMem : c ∈ w := by
      rw [hLine]
      exact List.mem_append_right _ List.mem_cons_self
    have hHidden : ∀ r, blockSelector (firstLine (w ++ r)) = [] := by
      intro r
      have hBlank : allBlank (firstLine w) = true := (allBlank_append_cons_iff.1 (hLine ▸ hw)).1
      rw [hLine, List.append_assoc, List.cons_append,
        firstLine_append_break (oneLine_firstLine w) hc]
      have hNothing := blockSelector_append_left hBlank []
      rwa [List.append_nil] at hNothing
    rw [and_iff_right ⟨c, hMem, hc⟩]
    constructor
    · intro h
      rw [((hRule []).1 (h [] rfl)).2, hHidden]
    · intro hNil r _
      exact (hRule r).2 ⟨startsOpening_lastLine hx hNil, by rw [hNil, hHidden]⟩

/-- A comment over three lines, of which the last one starts with an opening of its own. -/
theorem blockSelector_comment_nestedOpening :
    ('{' : CodePoint) ∉ (" a\n\n  /* b " : Text) ∧ allBlank " \r\n" = true ∧
      ∀ r, hasComment r = false →
        blockSelector (commentText " a\n\n  /* b " ++ (" \r\n" ++ r)) = blockSelector r := by
  have hBrace : ('{' : CodePoint) ∉ (" a\n\n  /* b " : Text) := by decide
  have hBlank : allBlank " \r\n" = true := by decide
  have hRules := (blockSelector_comment_iff hBrace hBlank).2
  exact ⟨hBrace, hBlank, hRules.2 ⟨⟨'\n', by decide, by decide⟩, by decide +kernel⟩⟩

end StyleScaffold.Css
