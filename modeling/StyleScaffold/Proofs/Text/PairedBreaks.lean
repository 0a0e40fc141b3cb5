import StyleScaffold.Proofs.Text.Pieces
import StyleScaffold.Proofs.Text.Trim
import StyleScaffold.Text.Lines

/-!
# Two characters for a line break

Some systems end a line with a carriage return in front of the line feed. A text is put in that form
by pairing each of its line feeds (`pairedBreaks`); read with universal line breaks, it is the text
again (`universalBreaks_pairedBreaks`).

Both characters are blank, so trimming comes before or after (`trim_pairedBreaks`). A recogniser
that does not start with either of them finds in the paired text what it finds in the text
(`firstMatch_pairedBreaks`).
-/

namespace StyleScaffold.Text

/-- Every `\n` becomes `\r\n`. -/
def pairedBreaks (s : Text) : Text :=
  s.flatMap fun (c : CodePoint) => if c = '\n' then [.char '\r', .char '\n'] else [c]

/-- The class treats both characters of a line break alike. -/
def TreatsBreaks (p : CodePoint → Bool) (b : Bool) : Prop :=
  p (.char '\r') = b ∧ p (.char '\n') = b

variable {c : CodePoint} {s t : Text} {p : CodePoint → Bool}

@[simp] theorem pairedBreaks_nil : pairedBreaks [] = [] := rfl

theorem pairedBreaks_lineFeed (s : Text) :
    pairedBreaks (.char '\n' :: s) = .char '\r' :: .char '\n' :: pairedBreaks s := rfl

theorem pairedBreaks_cons (hc : c ≠ '\n') (s : Text) :
    pairedBreaks (c :: s) = c :: pairedBreaks s := by
  rw [pairedBreaks, List.flatMap_cons, if_neg hc]
  rfl

theorem pairedBreaks_append (s t : Text) :
    pairedBreaks (s ++ t) = pairedBreaks s ++ pairedBreaks t := List.flatMap_append

theorem universalBreaks_pairedBreaks (h : (.char '\r') ∉ s) :
    universalBreaks (pairedBreaks s) = s := by
  induction s with
  | nil => rfl
  | cons c s ih =>
    rw [List.mem_cons, not_or] at h
    by_cases hc : c = '\n'
    · subst hc
      rw [pairedBreaks_lineFeed, universalBreaks, ih h.2]
    · have hReturn : ∀ rest, c = .char '\r' → pairedBreaks s = .char '\n' :: rest → False :=
        fun _ hEq _ => h.1 hEq.symm
      rw [pairedBreaks_cons hc, universalBreaks.eq_3 _ _ hReturn, ih h.2, if_neg (Ne.symm h.1)]

theorem length_pairedBreaks (s : Text) :
    (pairedBreaks s).length = s.length + s.count (.char '\n') := by
  induction s with
  | nil => rfl
  | cons c s ih =>
    by_cases hc : c = '\n'
    · subst hc
      rw [pairedBreaks_lineFeed, List.count_cons_self]
      simp only [List.length_cons, ih]
      omega
    · rw [pairedBreaks_cons hc, List.count_cons_of_ne hc, List.length_cons, List.length_cons, ih]
      omega

/-! ## Classes of characters -/

theorem all_pairedBreaks (hp : TreatsBreaks p true) (s : Text) :
    (pairedBreaks s).all p = s.all p := by
  induction s with
  | nil => rfl
  | cons c s ih =>
    by_cases hc : c = '\n'
    · subst hc
      rw [pairedBreaks_lineFeed, List.all_cons, List.all_cons, List.all_cons, hp.1, hp.2, ih]
      rfl
    · rw [pairedBreaks_cons hc, List.all_cons, List.all_cons, ih]

theorem filter_pairedBreaks (hp : TreatsBreaks p false) (s : Text) :
    (pairedBreaks s).filter p = s.filter p := by
  induction s with
  | nil => rfl
  | cons c s ih =>
    by_cases hc : c = '\n'
    · subst hc
      have hReturn : ¬ p (.char '\r') = true := by simp [hp.1]
      have hFeed : ¬ p (.char '\n') = true := by simp [hp.2]
      rw [pairedBreaks_lineFeed, List.filter_cons_of_neg hReturn, List.filter_cons_of_neg hFeed,
        List.filter_cons_of_neg hFeed, ih]
    · rw [pairedBreaks_cons hc, List.filter_cons, List.filter_cons, ih]

theorem takeWhile_pairedBreaks (hp : TreatsBreaks p false) (s : Text) :
    (pairedBreaks s).takeWhile p = s.takeWhile p := by
  induction s with
  | nil => rfl
  | cons c s ih =>
    by_cases hc : c = '\n'
    · subst hc
      rw [pairedBreaks_lineFeed, List.takeWhile_cons_of_neg (by simp [hp.1]),
        List.takeWhile_cons_of_neg (by simp [hp.2])]
    · rw [pairedBreaks_cons hc, List.takeWhile_cons, List.takeWhile_cons, ih]

/-- A run that line breaks do not end. -/
theorem run?_pairedBreaks (hp : TreatsBreaks p true) (s : Text) :
    run? p (pairedBreaks s) = (run? p s).map (Prod.map pairedBreaks pairedBreaks) := by
  have hEmpty : ∀ t : Text, (pairedBreaks t).isEmpty = t.isEmpty := by
    intro t
    cases t with
    | nil => rfl
    | cons c t =>
      by_cases hc : c = '\n'
      · subst hc
        rfl
      · rw [pairedBreaks_cons hc]
        rfl
  have hRun : (pairedBreaks s).takeWhile p = pairedBreaks (s.takeWhile p) ∧
      (pairedBreaks s).dropWhile p = pairedBreaks (s.dropWhile p) := by
    induction s with
    | nil => exact ⟨rfl, rfl⟩
    | cons c s ih =>
      by_cases hc : c = '\n'
      · subst hc
        rw [pairedBreaks_lineFeed, List.takeWhile_cons_of_pos hp.1, List.dropWhile_cons_of_pos hp.1,
          List.takeWhile_cons_of_pos hp.2, List.dropWhile_cons_of_pos hp.2,
          List.takeWhile_cons_of_pos hp.2, List.dropWhile_cons_of_pos hp.2, ih.1, ih.2]
        exact ⟨rfl, rfl⟩
      · rw [pairedBreaks_cons hc, List.takeWhile_cons, List.dropWhile_cons, List.takeWhile_cons,
          List.dropWhile_cons, ih.1, ih.2]
        split
        · rw [pairedBreaks_cons hc]
          exact ⟨rfl, rfl⟩
        · rw [pairedBreaks_cons hc]
          exact ⟨rfl, rfl⟩
  unfold run? run
  rw [hRun.1, hRun.2, hEmpty]
  split <;> rfl

/-! ## Blanks -/

theorem allBlank_pairedBreaks (s : Text) : allBlank (pairedBreaks s) = allBlank s :=
  all_pairedBreaks ⟨rfl, rfl⟩ s

theorem Trimmed.pairedBreaks (h : Trimmed s) : Trimmed (pairedBreaks s) := by
  have hSolid : ∀ d : CodePoint, isBlank d = false → d ≠ '\n' := by
    rintro d hd rfl
    exact absurd hd (by decide)
  constructor
  · intro d hd
    cases s with
    | nil => cases hd
    | cons c rest =>
      have hc := h.head c rfl
      rw [pairedBreaks_cons (hSolid c hc)] at hd
      cases hd
      exact hc
  · intro d hd
    rcases List.eq_nil_or_concat s with rfl | ⟨front, c, rfl⟩
    · cases hd
    · have hc := h.last c (by simp)
      rw [List.concat_eq_append, pairedBreaks_append, pairedBreaks_cons (hSolid c hc),
        pairedBreaks_nil, List.getLast?_concat] at hd
      cases hd
      exact hc

theorem trim_pairedBreaks (s : Text) : trim (pairedBreaks s) = pairedBreaks (trim s) := by
  obtain ⟨u, v, hu, hv, hs⟩ := exists_trim s
  rw [← allBlank_pairedBreaks] at hu hv
  calc
    trim (pairedBreaks s) = trim (pairedBreaks u ++ pairedBreaks (trim s) ++ pairedBreaks v) := by
      rw [← pairedBreaks_append, ← pairedBreaks_append, ← hs]
    _ = trim (pairedBreaks (trim s)) := by rw [trim_append_right hv, trim_append_left hu]
    _ = pairedBreaks (trim s) := (trimmed_trim s).pairedBreaks.trim_eq

/-! ## Marks and matches -/

/-- The text holds neither of the two characters. -/
def NoPair (mark : Text) : Prop := ∀ c ∈ mark, c ≠ '\r' ∧ c ≠ '\n'

instance (mark : Text) : Decidable (NoPair mark) :=
  inferInstanceAs (Decidable (∀ c ∈ mark, c ≠ '\r' ∧ c ≠ '\n'))

theorem strip?_pairedBreaks {mark : Text} (hMark : NoPair mark) (s : Text) :
    strip? mark (pairedBreaks s) = (strip? mark s).map pairedBreaks := by
  induction mark generalizing s with
  | nil => rfl
  | cons m mark ih =>
    obtain ⟨hFirst, hRest⟩ := List.forall_mem_cons.1 hMark
    cases s with
    | nil => rfl
    | cons c s =>
      by_cases hc : c = '\n'
      · subst hc
        rw [pairedBreaks_lineFeed, strip?, if_neg hFirst.1, strip?, if_neg hFirst.2]
        rfl
      · rw [pairedBreaks_cons hc, strip?, strip?, ih hRest]
        split <;> rfl

theorem startsWith_pairedBreaks {mark : Text} (hMark : NoPair mark) (s : Text) :
    startsWith mark (pairedBreaks s) = startsWith mark s := by
  rw [startsWith, strip?_pairedBreaks hMark, Option.isSome_map, startsWith]

/-- A recogniser that does the same on paired texts, and does not start with a line break. -/
theorem firstMatch_pairedBreaks {α : Type} {r : Text → Option α} {f : α → α}
    (hPaired : ∀ s, r (pairedBreaks s) = (r s).map f)
    (hNone : ∀ s, r (.char '\r' :: s) = none ∧ r (.char '\n' :: s) = none) (s : Text) :
    firstMatch r (pairedBreaks s) = (firstMatch r s).map f := by
  induction s with
  | nil => exact hPaired []
  | cons c s ih =>
    by_cases hc : c = '\n'
    · subst hc
      rw [pairedBreaks_lineFeed, firstMatch, (hNone _).1, firstMatch, (hNone _).2, firstMatch,
        (hNone _).2]
      exact ih
    · have hHere := hPaired (c :: s)
      rw [pairedBreaks_cons hc] at hHere ⊢
      rw [firstMatch, firstMatch, hHere]
      cases r (c :: s) with
      | some a => rfl
      | none => exact ih

theorem after?_eq_firstMatch (mark s : Text) : after? mark s = firstMatch (strip? mark) s := by
  induction s with
  | nil => rfl
  | cons c s ih =>
    rw [after?, firstMatch, ih]
    split <;> simp_all

theorem holds_pairedBreaks {mark : Text} (hMark : NoPair mark) (hne : mark ≠ []) (s : Text) :
    holds mark (pairedBreaks s) = holds mark s := by
  obtain ⟨m, mark, rfl⟩ := List.exists_cons_of_ne_nil hne
  have hFirst := hMark m List.mem_cons_self
  have hNone : ∀ s, strip? (m :: mark) (.char '\r' :: s) = none ∧
      strip? (m :: mark) (.char '\n' :: s) = none := by
    intro s
    rw [strip?, if_neg hFirst.1, strip?, if_neg hFirst.2]
    exact ⟨rfl, rfl⟩
  rw [holds, holds, after?_eq_firstMatch, after?_eq_firstMatch,
    firstMatch_pairedBreaks (strip?_pairedBreaks hMark) hNone, Option.isSome_map]

end StyleScaffold.Text
