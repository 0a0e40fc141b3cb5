import StyleScaffold.Text.Basic

/-!
# Pieces of a text

The two sides of the first occurrence of a character are determined by the text
(`halves?_eq_some_iff`), a cut loses only the character at which the text is cut
(`flatten_cut_sublist`), and joining adds only what stands between the pieces (`filter_join`).
Where two texts are put together, a character with what is on both sides of it lies in one of
them (`append_eq_append_cons`).
-/

namespace StyleScaffold.Text

theorem append_eq_append_cons {u v a b : Text} {c : CodePoint} (h : u ++ v = a ++ c :: b) :
    (∃ t, u = a ++ c :: t ∧ b = t ++ v) ∨ ∃ t, a = u ++ t ∧ v = t ++ c :: b := by
  rcases List.append_eq_append_iff.1 h with hRight | ⟨t, hu, hb⟩
  · exact Or.inr hRight
  · cases t with
    | nil => exact Or.inr ⟨[], by simpa using hu.symm, hb.symm⟩
    | cons d t =>
      rw [List.cons_append, List.cons.injEq] at hb
      exact Or.inl ⟨t, by rw [hu, hb.1], hb.2⟩

theorem ne_of_not_mem {sep : CodePoint} {s : Text} (h : sep ∉ s) :
    ∀ c ∈ s, decide (c ≠ sep) = true := by
  intro c hc
  rw [decide_eq_true_eq]
  rintro rfl
  exact h hc

theorem before_append {sep : CodePoint} {left : Text} (h : sep ∉ left) (right : Text) :
    before sep (left ++ sep :: right) = left := by
  rw [before, List.takeWhile_append_of_pos (ne_of_not_mem h)]
  simp

theorem before_of_not_mem {sep : CodePoint} {s : Text} (h : sep ∉ s) : before sep s = s := by
  have hTake : before sep (s ++ []) = s ++ [] := List.takeWhile_append_of_pos (ne_of_not_mem h)
  rwa [List.append_nil] at hTake

theorem not_mem_before (sep : CodePoint) (s : Text) : sep ∉ before sep s := by
  by_cases h : sep ∈ s
  · obtain ⟨left, right, rfl, hLeft⟩ := List.eq_append_cons_of_mem h
    rwa [before_append hLeft]
  · rwa [before_of_not_mem h]

theorem halves?_append {sep : CodePoint} {left : Text} (h : sep ∉ left) (right : Text) :
    halves? sep (left ++ sep :: right) = some (left, right) := by
  rw [halves?, List.dropWhile_append_of_pos (ne_of_not_mem h),
    List.takeWhile_append_of_pos (ne_of_not_mem h)]
  simp

theorem halves?_of_not_mem {sep : CodePoint} {s : Text} (h : sep ∉ s) : halves? sep s = none := by
  have hDrop : (s ++ []).dropWhile (· ≠ sep) = [] := List.dropWhile_append_of_pos (ne_of_not_mem h)
  rw [List.append_nil] at hDrop
  rw [halves?, hDrop]

/-- A text is its part in front of the first `sep`, the `sep`, and its part behind that. -/
theorem halves?_eq_some_iff {sep : CodePoint} {s left right : Text} :
    halves? sep s = some (left, right) ↔ s = left ++ sep :: right ∧ sep ∉ left := by
  constructor
  · intro h
    by_cases hMem : sep ∈ s
    · obtain ⟨a, b, rfl, ha⟩ := List.eq_append_cons_of_mem hMem
      rw [halves?_append ha, Option.some.injEq, Prod.mk.injEq] at h
      obtain ⟨rfl, rfl⟩ := h
      exact ⟨rfl, ha⟩
    · rw [halves?_of_not_mem hMem] at h
      cases h
  · rintro ⟨rfl, hLeft⟩
    exact halves?_append hLeft right

/-- In front of a `sep`, the first half is what precedes the first `sep` there. -/
theorem exists_halves?_append (sep : CodePoint) (s t : Text) :
    ∃ right, halves? sep (s ++ sep :: t) = some (before sep s, right) := by
  by_cases h : sep ∈ s
  · obtain ⟨a, b, rfl, ha⟩ := List.eq_append_cons_of_mem h
    rw [before_append ha, List.append_assoc, List.cons_append]
    exact ⟨_, halves?_append ha _⟩
  · rw [before_of_not_mem h]
    exact ⟨t, halves?_append h t⟩

theorem run?_eq (p : CodePoint → Bool) (s : Text) :
    run? p s = if s.head?.any p then some (s.takeWhile p, s.dropWhile p) else none := by
  cases s with
  | nil => rfl
  | cons c s =>
    cases hc : p c with
    | true => simp [run?, run, hc]
    | false => simp [run?, hc]

theorem forall_of_run? {p : CodePoint → Bool} {s front back : Text}
    (h : run? p s = some (front, back)) : ∀ c ∈ front, p c = true := by
  rw [run?_eq] at h
  split at h
  · cases h
    exact List.all_eq_true.1 List.all_takeWhile
  · cases h

theorem ne_nil_of_run? {p : CodePoint → Bool} {s front back : Text}
    (h : run? p s = some (front, back)) : front ≠ [] := by
  unfold run? at h
  split at h
  · cases h
  · rename_i hne
    rw [Option.some.injEq, run, Prod.mk.injEq] at h
    rw [← h.1]
    simpa using hne

/-- A leading run and what is behind it are the text. -/
theorem append_of_run? {inClass : CodePoint → Bool} {s front back : Text}
    (h : run? inClass s = some (front, back)) : s = front ++ back := by
  unfold run? at h
  split at h
  · cases h
  · rw [Option.some.injEq, run, Prod.mk.injEq] at h
    rw [← h.1, ← h.2, List.takeWhile_append_dropWhile]

/-- A run ends where the first character of another kind stands. -/
theorem run?_append {p : CodePoint → Bool} {s rest : Text} (hs : s ≠ [])
    (hAll : ∀ c ∈ s, p c = true) (hRest : ∀ c ∈ rest.head?, p c = false) :
    run? p (s ++ rest) = some (s, rest) := by
  have hStop : rest.takeWhile p = [] ∧ rest.dropWhile p = rest := by
    cases rest with
    | nil => exact ⟨rfl, rfl⟩
    | cons c rest => simp [hRest c rfl]
  rw [run?, run, List.takeWhile_append_of_pos hAll, List.dropWhile_append_of_pos hAll, hStop.1,
    hStop.2, List.append_nil, if_neg (by simpa using hs)]

theorem run?_append_cons {p : CodePoint → Bool} {c : CodePoint} (hc : p c = false) (s t : Text) :
    run? p (s ++ c :: t) = (run? p s).map (Prod.map id (· ++ c :: t)) := by
  have hRun : (s ++ c :: t).takeWhile p = s.takeWhile p ∧
      (s ++ c :: t).dropWhile p = s.dropWhile p ++ c :: t := by
    induction s with
    | nil => simp [hc]
    | cons d s ih => cases hd : p d <;> simp [hd, ih]
  rw [run?, run?, run, run, hRun.1, hRun.2]
  split <;> rfl

theorem strip?_append_cons {lead : Text} {c : CodePoint} (hc : c ∉ lead) (s t : Text) :
    strip? lead (s ++ c :: t) = (strip? lead s).map (· ++ c :: t) := by
  induction lead generalizing s with
  | nil => rfl
  | cons d lead ih =>
    rw [List.mem_cons, not_or] at hc
    cases s with
    | nil => exact if_neg (Ne.symm hc.1)
    | cons e s =>
      rw [List.cons_append, strip?, strip?]
      split
      · exact ih hc.2 s
      · rfl

theorem flatten_cut_sublist (sep : CodePoint) (s : Text) : (cut sep s).flatten.Sublist s := by
  induction s with
  | nil => exact List.Sublist.refl []
  | cons c cs ih =>
    unfold cut
    split
    · exact ih.cons c
    · split
      · simp
      · rename_i piece pieces hCut
        rw [hCut, List.flatten_cons] at ih
        exact ih.cons_cons c

/-- How often a character occurs depends on the places where it occurs. -/
theorem count_eq_of_filter {c : CodePoint} {s t : Text}
    (h : s.filter (· == c) = t.filter (· == c)) : s.count c = t.count c := by
  rw [List.count_eq_length_filter, List.count_eq_length_filter, h]

/-- Of the characters of which the separator holds none, joined texts have those of the texts. -/
theorem filter_join {sep : Text} {p : CodePoint → Bool} (hp : ∀ c ∈ sep, p c = false)
    (pieces : List Text) : (join sep pieces).filter p = pieces.flatten.filter p := by
  have hSep : sep.filter p = [] := List.filter_eq_nil_iff.2 (by simpa using hp)
  induction pieces with
  | nil => rfl
  | cons s rest ih =>
    cases rest with
    | nil => simp
    | cons t more =>
      rw [join_cons_cons, List.filter_append, List.filter_append, ih, hSep, List.append_nil,
        ← List.filter_append]
      rfl

/-- A character that the separator does not hold occurs in joined texts as often as in the
texts. -/
theorem count_join {sep : Text} {c : CodePoint} (hc : c ∉ sep) (pieces : List Text) :
    (join sep pieces).count c = pieces.flatten.count c := by
  apply count_eq_of_filter
  apply filter_join
  intro d hd
  rw [beq_eq_false_iff_ne]
  rintro rfl
  exact hc hd

theorem join_cons {rest : List Text} (h : rest ≠ []) (sep s : Text) :
    join sep (s :: rest) = s ++ sep ++ join sep rest := by
  obtain ⟨t, more, rfl⟩ := List.exists_cons_of_ne_nil h
  rfl

theorem join_concat {front : List Text} (h : front ≠ []) (sep s : Text) :
    join sep (front ++ [s]) = join sep front ++ sep ++ s := by
  induction front with
  | nil => exact absurd rfl h
  | cons t rest ih =>
    by_cases hRest : rest = []
    · subst hRest
      rfl
    · rw [List.cons_append, join_cons (by simp), ih hRest, join_cons hRest]
      simp only [List.append_assoc]

theorem join_append {front back : List Text} (hFront : front ≠ []) (hBack : back ≠ [])
    (sep : Text) : join sep (front ++ back) = join sep front ++ (sep ++ join sep back) := by
  induction front with
  | nil => exact absurd rfl hFront
  | cons s rest ih =>
    by_cases hRest : rest = []
    · subst hRest
      rw [List.singleton_append, join_cons hBack, join_singleton, List.append_assoc]
    · rw [List.cons_append, join_cons (by simp [hRest]), ih hRest, join_cons hRest]
      simp only [List.append_assoc]

theorem mem_join {sep : Text} {pieces : List Text} {c : CodePoint} (h : c ∈ join sep pieces) :
    c ∈ sep ∨ ∃ piece ∈ pieces, c ∈ piece := by
  induction pieces with
  | nil => cases h
  | cons s rest ih =>
    by_cases hRest : rest = []
    · subst hRest
      exact Or.inr ⟨s, List.mem_cons_self, h⟩
    · rw [join_cons hRest, List.mem_append, List.mem_append] at h
      rcases h with (hFirst | hSep) | hMore
      · exact Or.inr ⟨s, List.mem_cons_self, hFirst⟩
      · exact Or.inl hSep
      · rcases ih hMore with hSep | ⟨piece, hPiece, hc⟩
        · exact Or.inl hSep
        · exact Or.inr ⟨piece, List.mem_cons_of_mem s hPiece, hc⟩

theorem mem_join_iff {sep : Text} {c : CodePoint} (hc : c ∉ sep) {pieces : List Text} :
    c ∈ join sep pieces ↔ ∃ piece ∈ pieces, c ∈ piece := by
  rw [← List.count_pos_iff, count_join hc, List.count_pos_iff, List.mem_flatten]

theorem join_append_head (sep u s : Text) (rest : List Text) :
    join sep ((u ++ s) :: rest) = u ++ join sep (s :: rest) := by
  by_cases h : rest = []
  · subst h
    rfl
  · rw [join_cons h, join_cons h, List.append_assoc, List.append_assoc, List.append_assoc]

theorem join_append_last (sep u s : Text) (front : List Text) :
    join sep (front ++ [s ++ u]) = join sep (front ++ [s]) ++ u := by
  by_cases h : front = []
  · subst h
    rfl
  · rw [join_concat h, join_concat h, List.append_assoc, List.append_assoc, List.append_assoc]

/-! ## Cut texts -/

theorem cut_of_not_mem {sep : CodePoint} {s : Text} (h : sep ∉ s) : cut sep s = [s] := by
  induction s with
  | nil => rfl
  | cons c s ih =>
    rw [List.mem_cons, not_or] at h
    rw [cut, if_neg (Ne.symm h.1), ih h.2]

theorem cut_append_cons {sep : CodePoint} {s : Text} (h : sep ∉ s) (t : Text) :
    cut sep (s ++ sep :: t) = s :: cut sep t := by
  induction s with
  | nil => rw [List.nil_append, cut, if_pos rfl]
  | cons c s ih =>
    rw [List.mem_cons, not_or] at h
    rw [List.cons_append, cut, if_neg (Ne.symm h.1), ih h.2]

/-- Pieces that are joined with a character are cut apart there again. -/
theorem cut_join {sep : CodePoint} {pieces : List Text} (hne : pieces ≠ [])
    (h : ∀ piece ∈ pieces, sep ∉ piece) : cut sep (join [sep] pieces) = pieces := by
  induction pieces with
  | nil => exact absurd rfl hne
  | cons s rest ih =>
    rw [List.forall_mem_cons] at h
    by_cases hRest : rest = []
    · subst hRest
      exact cut_of_not_mem h.1
    · rw [join_cons hRest, List.append_assoc, List.singleton_append, cut_append_cons h.1,
        ih hRest h.2]

/-- What is put in front of a text goes to its first piece. -/
theorem cut_append_left {sep : CodePoint} {u : Text} (hu : sep ∉ u) (s : Text) :
    ∃ piece rest, cut sep s = piece :: rest ∧ cut sep (u ++ s) = (u ++ piece) :: rest := by
  induction u with
  | nil =>
    have hne : cut sep s ≠ [] := by
      intro hNil
      have hSelf := join_cut sep s
      rw [hNil] at hSelf
      cases hSelf
      cases hNil
    obtain ⟨piece, rest, hCut⟩ := List.exists_cons_of_ne_nil hne
    exact ⟨piece, rest, hCut, hCut⟩
  | cons c u ih =>
    rw [List.mem_cons, not_or] at hu
    obtain ⟨piece, rest, hCut, hMore⟩ := ih hu.2
    refine ⟨piece, rest, hCut, ?_⟩
    rw [List.cons_append, cut, if_neg (Ne.symm hu.1), hMore]
    rfl

/-- What is put behind a text goes to its last piece. -/
theorem cut_append_right {sep : CodePoint} {u : Text} (hu : sep ∉ u) (s : Text) :
    ∃ front piece, cut sep s = front ++ [piece] ∧ cut sep (s ++ u) = front ++ [piece ++ u] := by
  induction s with
  | nil => exact ⟨[], [], rfl, cut_of_not_mem hu⟩
  | cons c s ih =>
    obtain ⟨front, piece, hCut, hMore⟩ := ih
    rw [List.cons_append, cut, cut, hCut, hMore]
    by_cases hc : c = sep
    · rw [if_pos hc, if_pos hc]
      exact ⟨[] :: front, piece, rfl, rfl⟩
    · rw [if_neg hc, if_neg hc]
      cases front with
      | nil => exact ⟨[], c :: piece, rfl, rfl⟩
      | cons first front => exact ⟨(c :: first) :: front, piece, rfl, rfl⟩

/-! ## Leftmost matches -/

theorem exists_of_firstMatch {α : Type} {recognise : Text → Option α} {s : Text} {a : α}
    (h : firstMatch recognise s = some a) :
    ∃ front back, s = front ++ back ∧ recognise back = some a := by
  induction s with
  | nil => exact ⟨[], [], rfl, h⟩
  | cons c s ih =>
    unfold firstMatch at h
    split at h
    · rename_i b hMatch
      exact ⟨[], c :: s, rfl, hMatch.trans h⟩
    · obtain ⟨front, back, rfl, hMatch⟩ := ih h
      exact ⟨c :: front, back, rfl, hMatch⟩

theorem firstMatch_of_match {α : Type} {recognise : Text → Option α} {s : Text} {a : α}
    (h : recognise s = some a) : firstMatch recognise s = some a := by
  cases s with
  | nil => exact h
  | cons c s => rw [firstMatch, h]

/-- A search passes over characters at which nothing is recognised. -/
theorem firstMatch_append {α : Type} {recognise : Text → Option α} {lead : Text}
    (h : ∀ c ∈ lead, ∀ s, recognise (c :: s) = none) (s : Text) :
    firstMatch recognise (lead ++ s) = firstMatch recognise s := by
  induction lead with
  | nil => rfl
  | cons c lead ih =>
    rw [List.forall_mem_cons] at h
    rw [List.cons_append, firstMatch, h.1]
    exact ih h.2

/-- A mark is not found before the first occurrence of its last character. -/
theorem after?_append {lead mark : Text} {c : CodePoint} (hLead : c ∉ lead) (hMark : c ∉ mark)
    (rest : Text) : after? (mark ++ [c]) (lead ++ (mark ++ c :: rest)) = some rest := by
  induction lead with
  | nil =>
    have hStrip : strip? (mark ++ [c]) (mark ++ c :: rest) = some rest := by
      rw [strip?_eq_some_iff, List.append_assoc, List.singleton_append]
    rw [List.nil_append]
    cases hText : mark ++ c :: rest with
    | nil => simp at hText
    | cons d s => rw [after?, ← hText, hStrip]
  | cons d lead ih =>
    have hNone : strip? (mark ++ [c]) (d :: (lead ++ (mark ++ c :: rest))) = none := by
      rw [Option.eq_none_iff_forall_ne_some]
      intro back hStrip
      have hEq : d :: lead ++ mark ++ c :: rest = mark ++ c :: back := by
        simpa using strip?_eq_some_iff.1 hStrip
      have hFront : before c (d :: lead ++ mark ++ c :: rest) = mark := by
        rw [hEq, before_append hMark]
      rw [before_append (by simp only [List.mem_append, hLead, hMark, or_self, not_false_iff])]
        at hFront
      have hLength := congrArg List.length hFront
      simp only [List.length_append, List.length_cons] at hLength
      omega
    rw [List.mem_cons, not_or] at hLead
    rw [List.cons_append, after?, hNone]
    exact ih hLead.2

end StyleScaffold.Text
