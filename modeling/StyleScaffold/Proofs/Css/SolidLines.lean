import StyleScaffold.Css.Block
import StyleScaffold.Proofs.Text.Pieces
import StyleScaffold.Proofs.Text.Trim

/-!
# Lines that are not blank

Two equations determine the solid lines of every text, since a text either lies on one line or
has a first line break (`lineInduction`).

* `solidLines_of_oneLine`: a text on one line is its own only solid line, unless it is blank.
* `solidLines_append_break`: a line break of any kind separates the solid lines in front of it
  from those behind it. That `\r\n` is one break and that a break at the end opens no line
  makes no difference here, because an empty line is blank.

The rest of the module is what these equations give for joined lines, for blanks around a text,
and for the characters of it that are not blank.
-/

namespace StyleScaffold.Css

open Text

/-- The text holds no line break. -/
def OneLine (s : Text) : Prop := ∀ c ∈ s, isLineBreak c = false

instance (s : Text) : Decidable (OneLine s) :=
  inferInstanceAs (Decidable (∀ c ∈ s, isLineBreak c = false))

theorem isLineBreak_lineFeed : isLineBreak (.char '\n') = true := by decide

theorem isBlank_of_isLineBreak {c : CodePoint} (h : isLineBreak c = true) : isBlank c = true := by
  simp only [isLineBreak, isBlank, Bool.or_eq_true, Bool.and_eq_true, decide_eq_true_eq,
    beq_iff_eq] at h ⊢
  omega

theorem OneLine.append {s t : Text} (hs : OneLine s) (ht : OneLine t) : OneLine (s ++ t) := by
  intro c hc
  rcases List.mem_append.1 hc with hc | hc
  · exact hs c hc
  · exact ht c hc

theorem OneLine.of_subset {s t : Text} (ht : OneLine t) (h : s ⊆ t) : OneLine s :=
  fun c hc => ht c (h hc)

theorem any_isLineBreak_iff {s : Text} : s.any isLineBreak = false ↔ OneLine s := by
  simp [OneLine]

/-- A text lies on one line, or it is a line, a break, and the text behind the break. -/
theorem lineInduction {motive : Text → Prop} (line : ∀ s, OneLine s → motive s)
    (lineBreak : ∀ a c b, OneLine a → isLineBreak c = true → motive b → motive (a ++ c :: b))
    (s : Text) : motive s := by
  suffices h : ∀ a, OneLine a → motive (a ++ s) from h [] (by simp [OneLine])
  induction s with
  | nil =>
    intro a ha
    simpa using line a ha
  | cons c rest ih =>
    intro a ha
    by_cases hc : isLineBreak c = true
    · exact lineBreak a c rest ha hc (ih [] (by simp [OneLine]))
    · have hOne : OneLine (a ++ [c]) := ha.append (by simpa [OneLine] using hc)
      simpa using ih (a ++ [c]) hOne

/-! ## The two equations -/

/-- Cut at every character that ends a line, a text has the same first piece and, but for empty
pieces, the same further pieces. -/
theorem lines_and_pieces (s : Text) :
    (lines s).headD [] = (s.splitOnP isLineBreak).headD [] ∧
      (lines s).tail.filter (fun line => ! allBlank line) =
        (s.splitOnP isLineBreak).tail.filter fun line => ! allBlank line := by
  have filter_eq : ∀ ls : List Text, ls.filter (fun line => ! allBlank line) =
      (if allBlank (ls.headD []) then [] else [ls.headD []]) ++
        ls.tail.filter fun line => ! allBlank line := by
    intro ls
    cases ls with
    | nil => rfl
    | cons line rest => cases h : allBlank line <;> simp [h]
  fun_induction lines s with
  | case1 => simp
  | case2 rest ih =>
    refine ⟨rfl, ?_⟩
    rw [List.splitOnP_cons_eq_if_modifyHead, if_pos (by decide),
      List.splitOnP_cons_eq_if_modifyHead, if_pos (by decide), List.tail_cons, List.tail_cons,
      filter_eq, ih.1, ih.2, ← filter_eq]
    rfl
  | case3 c rest _ hBreak ih =>
    refine ⟨?_, ?_⟩
    · simp [List.splitOnP_cons_eq_if_modifyHead, hBreak]
    · rw [List.splitOnP_cons_eq_if_modifyHead, if_pos hBreak, List.tail_cons, List.tail_cons,
        filter_eq, ih.1, ih.2, ← filter_eq]
  | case4 c rest _ hBreak ih =>
    rw [List.splitOnP_cons_eq_if_modifyHead, if_neg hBreak]
    obtain ⟨piece, pieces, hPieces⟩ :=
      List.exists_cons_of_ne_nil (List.splitOnP_ne_nil isLineBreak rest)
    rw [hPieces] at ih ⊢
    cases hLines : lines rest with
    | nil =>
      rw [hLines] at ih
      simpa [extendFirst] using ih
    | cons line more =>
      rw [hLines] at ih
      simpa [extendFirst] using ih

theorem solidLines_eq_pieces (s : Text) :
    solidLines s = (s.splitOnP isLineBreak).filter fun line => ! allBlank line := by
  obtain ⟨hHead, hTail⟩ := lines_and_pieces s
  obtain ⟨piece, pieces, hPieces⟩ :=
    List.exists_cons_of_ne_nil (List.splitOnP_ne_nil isLineBreak s)
  rw [hPieces, List.headD_cons] at hHead
  rw [hPieces, List.tail_cons] at hTail
  unfold solidLines
  cases hLines : lines s with
  | nil =>
    rw [hLines] at hHead hTail
    rw [hPieces, ← show ([] : Text) = piece from hHead, List.filter_cons, ← hTail]
    rfl
  | cons line more =>
    rw [hLines, List.headD_cons] at hHead
    rw [hLines, List.tail_cons] at hTail
    rw [hPieces, List.filter_cons, List.filter_cons, hHead, hTail]

theorem solidLines_of_oneLine {s : Text} (h : OneLine s) :
    solidLines s = if allBlank s then [] else [s] := by
  rw [solidLines_eq_pieces, List.splitOnP_eq_singleton h]
  cases hs : allBlank s <;> simp [hs]

theorem solidLines_append_break {c : CodePoint} (hc : isLineBreak c = true) (a b : Text) :
    solidLines (a ++ c :: b) = solidLines a ++ solidLines b := by
  simp only [solidLines_eq_pieces, List.splitOnP_append_cons a b hc, List.filter_append]

/-! ## Blank texts and solid lines -/

theorem solidLines_of_allBlank {s : Text} (hs : allBlank s = true) : solidLines s = [] := by
  induction s using lineInduction with
  | line s h => rw [solidLines_of_oneLine h, hs, if_pos rfl]
  | lineBreak a c b ha hc ih =>
    rw [allBlank_append_cons_iff] at hs
    rw [solidLines_append_break hc, solidLines_of_oneLine ha, hs.1, if_pos rfl, ih hs.2.2]
    rfl

theorem solidLines_of_solid {s : Text} (h : OneLine s) (hs : allBlank s = false) :
    solidLines s = [s] := by
  rw [solidLines_of_oneLine h, hs, if_neg (by simp)]

theorem oneLine_of_mem_solidLines {s line : Text} (h : line ∈ solidLines s) : OneLine line :=
  fun _ hc => not_isLineBreak_of_mem_lines (List.mem_filter.1 h).1 hc

theorem solid_of_mem_solidLines {s line : Text} (h : line ∈ solidLines s) :
    allBlank line = false := by
  simpa using (List.mem_filter.1 h).2

/-! ## Joined lines -/

theorem solidLines_join (ls : List Text) : solidLines (join ['\n'] ls) = ls.flatMap solidLines := by
  induction ls with
  | nil => rfl
  | cons s rest ih =>
    cases rest with
    | nil => simp
    | cons t more =>
      rw [join_cons_cons, List.append_assoc, List.singleton_append,
        solidLines_append_break isLineBreak_lineFeed, ih]
      rfl

/-- Solid lines that are joined are the solid lines of the result. -/
theorem solidLines_join_eq_self {ls : List Text}
    (h : ∀ line ∈ ls, OneLine line ∧ allBlank line = false) :
    solidLines (join ['\n'] ls) = ls := by
  rw [solidLines_join]
  induction ls with
  | nil => rfl
  | cons line rest ih =>
    obtain ⟨hLine, hSolid⟩ := h line (by simp)
    rw [List.flatMap_cons, solidLines_of_solid hLine hSolid,
      ih fun line hMem => h line (by simp [hMem])]
    rfl

/-! ## Blanks at the ends -/

/-- Blanks in front of a text are lost, or those behind their last line break extend its first
solid line. -/
theorem solidLines_append_left {w : Text} (hw : allBlank w = true) (s : Text) :
    solidLines (w ++ s) = solidLines s ∨
      ∃ u line rest, allBlank u = true ∧ solidLines s = line :: rest ∧
        solidLines (w ++ s) = (u ++ line) :: rest := by
  have onLine : ∀ u v : Text, OneLine u → allBlank u = true → OneLine v →
      solidLines (u ++ v) = solidLines v ∨ solidLines v = [v] ∧ solidLines (u ++ v) = [u ++ v] := by
    intro u v hu hBlank hv
    rw [solidLines_of_oneLine (hu.append hv), solidLines_of_oneLine hv, allBlank_append, hBlank,
      Bool.true_and]
    split
    · exact Or.inl rfl
    · exact Or.inr ⟨rfl, rfl⟩
  induction w using lineInduction with
  | line w hLine =>
    induction s using lineInduction with
    | line s h =>
      rcases onLine w s hLine hw h with hEq | ⟨hs, hEq⟩
      · exact Or.inl hEq
      · exact Or.inr ⟨w, s, [], hw, hs, hEq⟩
    | lineBreak a c b ha hc _ =>
      rw [← List.append_assoc, solidLines_append_break hc, solidLines_append_break hc]
      rcases onLine w a hLine hw ha with hEq | ⟨hs, hEq⟩
      · exact Or.inl (by rw [hEq])
      · exact Or.inr ⟨w, a, solidLines b, hw, by rw [hs]; rfl, by rw [hEq]; rfl⟩
  | lineBreak a c b ha hc ih =>
    rw [allBlank_append_cons_iff] at hw
    rw [List.append_assoc, List.cons_append, solidLines_append_break hc,
      solidLines_of_allBlank hw.1, List.nil_append]
    exact ih hw.2.2

/-- Blanks behind a text are lost, or those in front of their first line break extend its last
solid line. -/
theorem solidLines_append_right {w : Text} (hw : allBlank w = true) (s : Text) :
    solidLines (s ++ w) = solidLines s ∨
      ∃ u line rest, allBlank u = true ∧ solidLines s = rest ++ [line] ∧
        solidLines (s ++ w) = rest ++ [line ++ u] := by
  have onLine : ∀ u v : Text, OneLine u → OneLine v → allBlank v = true →
      solidLines (u ++ v) = solidLines u ∨ solidLines u = [u] ∧ solidLines (u ++ v) = [u ++ v] := by
    intro u v hu hv hBlank
    rw [solidLines_of_oneLine (hu.append hv), solidLines_of_oneLine hu, allBlank_append, hBlank,
      Bool.and_true]
    split
    · exact Or.inl rfl
    · exact Or.inr ⟨rfl, rfl⟩
  induction s using lineInduction with
  | line s h =>
    induction w using lineInduction with
    | line w hLine =>
      rcases onLine s w h hLine hw with hEq | ⟨hs, hEq⟩
      · exact Or.inl hEq
      · exact Or.inr ⟨w, s, [], hw, hs, hEq⟩
    | lineBreak a c b ha hc _ =>
      rw [allBlank_append_cons_iff] at hw
      rw [← List.append_assoc, solidLines_append_break hc, solidLines_of_allBlank hw.2.2,
        List.append_nil]
      rcases onLine s a h ha hw.1 with hEq | ⟨hs, hEq⟩
      · exact Or.inl hEq
      · exact Or.inr ⟨a, s, [], hw.1, hs, hEq⟩
  | lineBreak a c b ha hc ih =>
    rw [List.append_assoc, List.cons_append, solidLines_append_break hc,
      solidLines_append_break hc]
    rcases ih with hEq | ⟨u, line, rest, hu, hs, hEq⟩
    · exact Or.inl (by rw [hEq])
    · refine Or.inr ⟨u, line, solidLines a ++ rest, hu, ?_, ?_⟩
      · rw [hs, List.append_assoc]
      · rw [hEq, List.append_assoc]

/-- Blanks in front of a solid line belong to it from their last line break on. -/
theorem solidLines_blank_append {w s : Text} (hw : allBlank w = true) (h : OneLine s)
    (hs : allBlank s = false) : ∃ u, allBlank u = true ∧ solidLines (w ++ s) = [u ++ s] := by
  rcases solidLines_append_left hw s with hEq | ⟨u, line, rest, hu, hLine, hEq⟩
  · exact ⟨[], rfl, by rw [hEq, solidLines_of_solid h hs]; rfl⟩
  · rw [solidLines_of_solid h hs, List.cons.injEq] at hLine
    obtain ⟨rfl, rfl⟩ := hLine
    exact ⟨u, hu, hEq⟩

theorem map_trim_solidLines_append_left {w : Text} (hw : allBlank w = true) (s : Text) :
    (solidLines (w ++ s)).map trim = (solidLines s).map trim := by
  rcases solidLines_append_left hw s with hEq | ⟨u, line, rest, hu, hs, hEq⟩
  · rw [hEq]
  · rw [hEq, hs, List.map_cons, List.map_cons, trim_append_left hu]

theorem map_trim_solidLines_append_right {w : Text} (hw : allBlank w = true) (s : Text) :
    (solidLines (s ++ w)).map trim = (solidLines s).map trim := by
  rcases solidLines_append_right hw s with hEq | ⟨u, line, rest, hu, hs, hEq⟩
  · rw [hEq]
  · rw [hEq, hs, List.map_append, List.map_append, List.map_singleton, List.map_singleton,
      trim_append_right hu]

/-- Trimming a text trims its solid lines at most. -/
theorem map_trim_solidLines_trim (s : Text) :
    (solidLines (trim s)).map trim = (solidLines s).map trim :=
  apply_trim (f := fun t => (solidLines t).map trim) map_trim_solidLines_append_left
    map_trim_solidLines_append_right s

/-- A block has the solid lines that were joined to it, but for blanks at their ends. -/
theorem map_trim_solidLines_blockOfLines {group : List Text}
    (h : ∀ line ∈ group, OneLine line ∧ allBlank line = false) :
    (solidLines (blockOfLines group)).map trim = group.map trim := by
  rw [blockOfLines, map_trim_solidLines_trim, solidLines_join_eq_self h]

/-! ## Characters that are not blank

Cutting a text into lines, trimming and joining loses and adds blanks only. -/

section Filter

variable {p : CodePoint → Bool} (hp : ∀ c, isBlank c = true → p c = false)

include hp

theorem filter_of_allBlank {s : Text} (hs : allBlank s = true) : s.filter p = [] := by
  rw [List.filter_eq_nil_iff]
  intro c hc
  rw [hp c (allBlank_iff.1 hs c hc)]
  exact Bool.false_ne_true

theorem filter_flatten_solidLines (s : Text) : (solidLines s).flatten.filter p = s.filter p := by
  have onLine : ∀ t, OneLine t → (solidLines t).flatten.filter p = t.filter p := by
    intro t h
    rw [solidLines_of_oneLine h]
    split
    · rename_i hBlank
      rw [filter_of_allBlank hp hBlank]
      rfl
    · simp
  induction s using lineInduction with
  | line s h => exact onLine s h
  | lineBreak a c b ha hc ih =>
    have hBreak : ¬ p c = true := by simp [hp c (isBlank_of_isLineBreak hc)]
    rw [solidLines_append_break hc, List.flatten_append, List.filter_append, onLine a ha, ih,
      List.filter_append, List.filter_cons_of_neg hBreak]

theorem filter_trim (s : Text) : (trim s).filter p = s.filter p := by
  refine apply_trim (f := (List.filter p ·)) ?_ ?_ s
  · intro w hw t
    rw [List.filter_append, filter_of_allBlank hp hw, List.nil_append]
  · intro w hw t
    rw [List.filter_append, filter_of_allBlank hp hw, List.append_nil]

theorem filter_blockOfLines (group : List Text) :
    (blockOfLines group).filter p = group.flatten.filter p := by
  have hBreak : ∀ c ∈ [('\n' : CodePoint)], p c = false := by
    intro c hc
    rw [List.mem_singleton.1 hc]
    exact hp _ (isBlank_of_isLineBreak isLineBreak_lineFeed)
  rw [blockOfLines, filter_trim hp, filter_join hBreak]

end Filter

/-! ## Occurrences of a character -/

theorem beq_eq_false_of_isBlank {c : CodePoint} (hc : isBlank c = false) (d : CodePoint)
    (hd : isBlank d = true) : (d == c) = false := by
  rw [beq_eq_false_iff_ne]
  rintro rfl
  rw [hc] at hd
  contradiction

theorem count_of_allBlank {s : Text} (hs : allBlank s = true) {c : CodePoint}
    (hc : isBlank c = false) : s.count c = 0 :=
  List.count_eq_zero.2 (not_mem_of_allBlank hs hc)

theorem count_flatten_solidLines {c : CodePoint} (hc : isBlank c = false) (s : Text) :
    (solidLines s).flatten.count c = s.count c :=
  count_eq_of_filter (filter_flatten_solidLines (beq_eq_false_of_isBlank hc) s)

theorem count_trim {c : CodePoint} (hc : isBlank c = false) (s : Text) :
    (trim s).count c = s.count c :=
  count_eq_of_filter (filter_trim (beq_eq_false_of_isBlank hc) s)

theorem count_blockOfLines {c : CodePoint} (hc : isBlank c = false) (group : List Text) :
    (blockOfLines group).count c = group.flatten.count c :=
  count_eq_of_filter (filter_blockOfLines (beq_eq_false_of_isBlank hc) group)

end StyleScaffold.Css
