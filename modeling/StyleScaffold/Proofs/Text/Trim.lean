import StyleScaffold.Text.Blank

/-!
# Trimmed texts

A text is trimmed when neither of its ends is blank.

* `trimmed_trim`, `Trimmed.trim_eq` (no assumption on the text): trimming gives a trimmed text
  and changes no text that is trimmed already.
* `trim_append_left`, `trim_append_right`: blanks around a text do not matter for trimming.
* `exists_trim`: only blanks are lost.
-/

namespace StyleScaffold.Text

/-- Neither the first nor the last character is blank. -/
structure Trimmed (s : Text) : Prop where
  head : ∀ c ∈ s.head?, isBlank c = false
  last : ∀ c ∈ s.getLast?, isBlank c = false

/-! ## Blank texts -/

theorem allBlank_iff {s : Text} : allBlank s = true ↔ ∀ c ∈ s, isBlank c = true :=
  List.all_eq_true

@[simp] theorem allBlank_cons (c : CodePoint) (s : Text) :
    allBlank (c :: s) = (isBlank c && allBlank s) := rfl

@[simp] theorem allBlank_append (s t : Text) :
    allBlank (s ++ t) = (allBlank s && allBlank t) := List.all_append

theorem allBlank_append_cons_iff {s t : Text} {c : CodePoint} :
    allBlank (s ++ c :: t) = true ↔ allBlank s = true ∧ isBlank c = true ∧ allBlank t = true := by
  rw [allBlank_append, allBlank_cons, Bool.and_eq_true, Bool.and_eq_true]

theorem allBlank_append_solid {c : CodePoint} (hc : isBlank c = false) (s t : Text) :
    allBlank (s ++ c :: t) = false := by
  rw [allBlank_append, allBlank_cons, hc, Bool.false_and, Bool.and_false]

/-- No character that is not blank occurs in a blank text. -/
theorem not_mem_of_allBlank {s : Text} (hs : allBlank s = true) {c : CodePoint}
    (hc : isBlank c = false) : c ∉ s := by
  intro hMem
  have := allBlank_iff.1 hs c hMem
  rw [hc] at this
  contradiction

/-! ## Both ends -/

theorem trimLeft_append {w : Text} (hw : allBlank w = true) (s : Text) :
    trimLeft (w ++ s) = trimLeft s :=
  List.dropWhile_append_of_pos (allBlank_iff.1 hw)

theorem trimRight_append {w : Text} (hw : allBlank w = true) (s : Text) :
    trimRight (s ++ w) = trimRight s := by
  have hReverse : ∀ c ∈ w.reverse, isBlank c = true := by
    intro c hc
    exact allBlank_iff.1 hw c (List.mem_reverse.1 hc)
  unfold trimRight
  rw [List.reverse_append, List.dropWhile_append_of_pos hReverse]

theorem trimLeft_of_allBlank {s : Text} (hs : allBlank s = true) : trimLeft s = [] := by
  have h := trimLeft_append hs []
  rwa [List.append_nil] at h

theorem exists_trimLeft (s : Text) : ∃ w, allBlank w = true ∧ s = w ++ trimLeft s :=
  ⟨s.takeWhile isBlank, List.all_takeWhile, List.takeWhile_append_dropWhile.symm⟩

theorem exists_trimRight (s : Text) : ∃ w, allBlank w = true ∧ s = trimRight s ++ w := by
  obtain ⟨w, hw, hs⟩ := exists_trimLeft s.reverse
  refine ⟨w.reverse, ?_, ?_⟩
  · rw [allBlank_iff]
    intro c hc
    exact allBlank_iff.1 hw c (List.mem_reverse.1 hc)
  · calc
      s = (w ++ trimLeft s.reverse).reverse := by rw [← hs, List.reverse_reverse]
      _ = trimRight s ++ w.reverse := List.reverse_append

theorem trimRight_sublist (s : Text) : (trimRight s).Sublist s := by
  simpa [trimRight] using (List.dropWhile_sublist isBlank (l := s.reverse)).reverse

theorem trim_sublist (s : Text) : (trim s).Sublist s :=
  (trimRight_sublist _).trans (List.dropWhile_sublist isBlank)

/-- A text is its trimmed part between two runs of blanks. -/
theorem exists_trim (s : Text) :
    ∃ u v, allBlank u = true ∧ allBlank v = true ∧ s = u ++ trim s ++ v := by
  obtain ⟨u, hu, hs⟩ := exists_trimLeft s
  obtain ⟨v, hv, ht⟩ := exists_trimRight (trimLeft s)
  exact ⟨u, v, hu, hv, by rw [List.append_assoc, trim, ← ht, ← hs]⟩

/-- Only blanks are missing in the trimmed text. -/
theorem mem_trim {s : Text} {c : CodePoint} (hc : isBlank c = false) (h : c ∈ s) : c ∈ trim s := by
  obtain ⟨u, v, hu, hv, hs⟩ := exists_trim s
  rw [hs] at h
  simpa [not_mem_of_allBlank hu hc, not_mem_of_allBlank hv hc] using h

theorem trim_eq_nil_iff {s : Text} : trim s = [] ↔ allBlank s = true := by
  constructor
  · intro h
    obtain ⟨u, v, hu, hv, hs⟩ := exists_trim s
    rw [hs, h]
    simp [hu, hv]
  · intro h
    have hLeft : trimLeft s = trimLeft [] := by
      simpa only [List.append_nil] using trimLeft_append h []
    rw [trim, hLeft]
    rfl

theorem trim_append_left {w : Text} (hw : allBlank w = true) (s : Text) :
    trim (w ++ s) = trim s := by
  rw [trim, trimLeft_append hw, trim]

theorem trim_append_right {w : Text} (hw : allBlank w = true) (s : Text) :
    trim (s ++ w) = trim s := by
  cases hs : trimLeft s with
  | nil =>
    have hBlank : allBlank s = true := trim_eq_nil_iff.1 (by rw [trim, hs]; rfl)
    rw [trim_append_left hBlank, trim_eq_nil_iff.2 hw, trim_eq_nil_iff.2 hBlank]
  | cons c rest =>
    have hLeft : trimLeft (s ++ w) = trimLeft s ++ w := by
      unfold trimLeft at hs ⊢
      rw [List.dropWhile_append, hs]
      rfl
    rw [trim, hLeft, trimRight_append hw, trim]

/-- What does not depend on blanks at the ends is the same for the trimmed text. -/
theorem apply_trim {α : Type} {f : Text → α}
    (left : ∀ {w}, allBlank w = true → ∀ s, f (w ++ s) = f s)
    (right : ∀ {w}, allBlank w = true → ∀ s, f (s ++ w) = f s) (s : Text) : f (trim s) = f s := by
  obtain ⟨u, v, hu, hv, hs⟩ := exists_trim s
  calc
    f (trim s) = f (u ++ trim s) := (left hu _).symm
    _ = f (u ++ trim s ++ v) := (right hv _).symm
    _ = f s := by rw [← hs]

/-! ## Trimmed texts -/

theorem trimRight_eq_self {s : Text} (h : ∀ c ∈ s.getLast?, isBlank c = false) :
    trimRight s = s := by
  rw [← List.head?_reverse] at h
  unfold trimRight
  cases hr : s.reverse with
  | nil => simpa using hr.symm
  | cons c rest =>
    have hc := h c (by simp [hr])
    rw [List.dropWhile_cons, hc, if_neg (by simp), ← hr, List.reverse_reverse]

theorem isBlank_of_getLast?_trimRight {s : Text} :
    ∀ c ∈ (trimRight s).getLast?, isBlank c = false := by
  intro c hc
  rw [trimRight, List.getLast?_reverse] at hc
  cases hr : s.reverse.dropWhile isBlank with
  | nil => simp [hr] at hc
  | cons d rest =>
    rw [hr] at hc
    obtain rfl : d = c := by simpa using hc
    exact not_isBlank_of_head_trimLeft hr

theorem trimRight_of_allBlank {s : Text} (hs : allBlank s = true) : trimRight s = [] := by
  have h := trimRight_append hs []
  rwa [List.nil_append] at h

theorem trimRight_ne_nil {s : Text} (hs : allBlank s = false) : trimRight s ≠ [] := by
  intro hNil
  obtain ⟨w, hw, hEq⟩ := exists_trimRight s
  rw [hNil, List.nil_append] at hEq
  rw [hEq, hw] at hs
  contradiction

theorem getLast?_append_of_ne_nil {s t : Text} (ht : t ≠ []) : (s ++ t).getLast? = t.getLast? := by
  rw [List.getLast?_append, List.getLast?_eq_some_getLast ht, Option.some_or]

theorem trimRight_append_solid {s : Text} (hs : allBlank s = false) (u : Text) :
    trimRight (u ++ s) = u ++ trimRight s := by
  obtain ⟨w, hw, hEq⟩ := exists_trimRight s
  calc
    trimRight (u ++ s) = trimRight (u ++ trimRight s ++ w) := by rw [List.append_assoc, ← hEq]
    _ = trimRight (u ++ trimRight s) := trimRight_append hw _
    _ = u ++ trimRight s := by
      apply trimRight_eq_self
      rw [getLast?_append_of_ne_nil (trimRight_ne_nil hs)]
      exact isBlank_of_getLast?_trimRight

theorem trimRight_cons_of_solid {c : CodePoint} (hc : isBlank c = false) (s : Text) :
    trimRight (c :: s) = c :: trimRight s := by
  cases hs : allBlank s with
  | true =>
    have hLast : ∀ d ∈ [c].getLast?, isBlank d = false := by simpa using hc
    rw [← List.singleton_append, trimRight_append hs, trimRight_eq_self hLast,
      trimRight_of_allBlank hs]
  | false => rw [← List.singleton_append, trimRight_append_solid hs, List.singleton_append]

theorem trim_takeWhile_trimRight (p : CodePoint → Bool) (s : Text) :
    trim ((trimRight s).takeWhile p) = trim (s.takeWhile p) := by
  obtain ⟨w, hw, hEq⟩ := exists_trimRight s
  have hBlank : allBlank (w.takeWhile p) = true := by
    rw [allBlank_iff] at hw ⊢
    exact fun c hc => hw c ((List.takeWhile_sublist p).subset hc)
  have hRun : s.takeWhile p = (trimRight s ++ w).takeWhile p := by rw [← hEq]
  rw [hRun, List.takeWhile_append]
  split
  · rename_i hLength
    have hAll := (List.takeWhile_prefix p).eq_of_length hLength
    rw [trim_append_right hBlank, hAll]
  · rfl

theorem dropWhile_trimRight (p : CodePoint → Bool) (s : Text) :
    (trimRight s).dropWhile p = trimRight (s.dropWhile p) := by
  obtain ⟨w, hw, hEq⟩ := exists_trimRight s
  have hRun : s.dropWhile p = (trimRight s ++ w).dropWhile p := by rw [← hEq]
  rw [hRun, List.dropWhile_append]
  split
  · rename_i hEmpty
    have hBlank : allBlank (w.dropWhile p) = true := by
      rw [allBlank_iff] at hw ⊢
      exact fun c hc => hw c ((List.dropWhile_sublist p).subset hc)
    rw [trimRight_of_allBlank hBlank, List.isEmpty_iff.1 hEmpty]
  · rename_i hSome
    have hne : (trimRight s).dropWhile p ≠ [] := by
      intro hNil
      exact hSome (List.isEmpty_iff.2 hNil)
    have hLast : (trimRight s).getLast? = ((trimRight s).dropWhile p).getLast? := by
      have h := getLast?_append_of_ne_nil (s := (trimRight s).takeWhile p) hne
      rwa [List.takeWhile_append_dropWhile] at h
    rw [trimRight_append hw]
    refine (trimRight_eq_self ?_).symm
    rw [← hLast]
    exact isBlank_of_getLast?_trimRight

theorem Trimmed.trim_eq {s : Text} (h : Trimmed s) : trim s = s := by
  have hLeft : trimLeft s = s := by
    cases s with
    | nil => rfl
    | cons c rest => simp [trimLeft, h.head c (by simp)]
  rw [trim, hLeft, trimRight_eq_self h.last]

/-- A trimmed text does not end in blanks alone. -/
theorem Trimmed.solid_of_append {s t : Text} (h : Trimmed (s ++ t)) (ht : t ≠ []) :
    allBlank t = false := by
  rw [Bool.eq_false_iff]
  intro hBlank
  have hLast : isBlank (t.getLast ht) = false := by
    apply h.last
    rw [getLast?_append_of_ne_nil ht, List.getLast?_eq_some_getLast ht]
    rfl
  rw [allBlank_iff.1 hBlank _ (List.getLast_mem ht)] at hLast
  contradiction

theorem Trimmed.append {s t : Text} (hs : Trimmed s) (ht : Trimmed t) (hsNil : s ≠ [])
    (htNil : t ≠ []) (w : Text) : Trimmed (s ++ w ++ t) where
  head := by
    obtain ⟨c, rest, rfl⟩ := List.exists_cons_of_ne_nil hsNil
    exact hs.head
  last := by
    rw [getLast?_append_of_ne_nil htNil]
    exact ht.last

/-- Only what is behind a trimmed text is trimmed. -/
theorem Trimmed.exists_trim_append {s : Text} (hs : Trimmed s) (hne : s ≠ []) (t : Text) :
    ∃ v, trim (s ++ t) = s ++ v := by
  have hLeft : trimLeft (s ++ t) = s ++ t := by
    obtain ⟨c, rest, rfl⟩ := List.exists_cons_of_ne_nil hne
    rw [List.cons_append, trimLeft, List.dropWhile_cons_of_neg]
    simp [hs.head c rfl]
  cases ht : allBlank t with
  | true => exact ⟨[], by rw [trim_append_right ht, hs.trim_eq, List.append_nil]⟩
  | false => exact ⟨trimRight t, by rw [trim, hLeft, trimRight_append_solid ht]⟩

theorem trimmed_trim (s : Text) : Trimmed (trim s) where
  head := by
    intro c hc
    obtain ⟨w, -, hw⟩ := exists_trimRight (trimLeft s)
    cases ht : trim s with
    | nil => simp [ht] at hc
    | cons d rest =>
      obtain rfl : d = c := by simpa [ht] using hc
      have hLeft : trimLeft s = d :: (rest ++ w) := by rw [hw, ← trim, ht, List.cons_append]
      exact not_isBlank_of_head_trimLeft hLeft
  last := isBlank_of_getLast?_trimRight

end StyleScaffold.Text
