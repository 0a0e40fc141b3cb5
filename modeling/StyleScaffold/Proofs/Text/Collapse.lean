import StyleScaffold.Proofs.Text.Trim

/-!
# Collapsed texts

In a collapsed text one filler stands for each run of blanks, and everything else is as it was.

* `takeWhile_collapse`, `dropWhile_collapse`: a run of characters ends at the same place, provided
  that the class treats blanks and the filler alike. So no run of blanks is cut in two.
* `trim_collapse`: trimming may come before or after.
* `collapse_collapse`: only the last filler is seen.
* `apply_collapse`: what does not care about texts with blanks does not see the filler either.
-/

namespace StyleScaffold.Text

/-- No character of the text is blank. -/
def Solid (s : Text) : Prop := ∀ c ∈ s, isBlank c = false

instance (s : Text) : Decidable (Solid s) :=
  inferInstanceAs (Decidable (∀ c ∈ s, isBlank c = false))

variable {f c : CodePoint}

theorem solid_cons {s : Text} : Solid (c :: s) ↔ isBlank c = false ∧ Solid s :=
  List.forall_mem_cons

theorem Solid.append {s t : Text} (hs : Solid s) (ht : Solid t) : Solid (s ++ t) := by
  intro c hc
  rcases List.mem_append.1 hc with hc | hc
  · exact hs c hc
  · exact ht c hc

theorem Solid.trim_eq {s : Text} (h : Solid s) : trim s = s := by
  apply Trimmed.trim_eq
  constructor
  · intro c hc
    exact h c (List.mem_of_mem_head? hc)
  · intro c hc
    exact h c (List.mem_of_getLast? hc)

theorem trimLeft_cons_of_blank (hc : isBlank c = true) (s : Text) :
    trimLeft (c :: s) = trimLeft s := List.dropWhile_cons_of_pos hc

theorem trimLeft_cons_of_solid (hc : isBlank c = false) (s : Text) : trimLeft (c :: s) = c :: s :=
  List.dropWhile_cons_of_neg (by rw [hc]; exact Bool.false_ne_true)

theorem trimLeft_append_cons (hc : isBlank c = false) (s t : Text) :
    trimLeft (s ++ c :: t) = trimLeft s ++ c :: t := by
  induction s with
  | nil => exact trimLeft_cons_of_solid hc t
  | cons d s ih =>
    cases hd : isBlank d with
    | true => rw [List.cons_append, trimLeft_cons_of_blank hd, ih, trimLeft_cons_of_blank hd]
    | false => rw [List.cons_append, trimLeft_cons_of_solid hd, trimLeft_cons_of_solid hd]; rfl

/-! ## Character by character -/

@[simp] theorem collapse_nil : collapse f [] = [] := by rw [collapse]

theorem collapse_cons_of_blank (hc : isBlank c = true) (s : Text) :
    collapse f (c :: s) = f :: collapse f (trimLeft s) := by
  rw [collapse, if_pos hc, trimLeft]

theorem collapse_cons_of_solid (hc : isBlank c = false) (s : Text) :
    collapse f (c :: s) = c :: collapse f s := by
  rw [collapse, hc, if_neg Bool.false_ne_true]

/-- A text is built from its end: a blank character comes in front of a text whose leading blanks
belong to the same run. -/
theorem collapseInduction {P : Text → Prop} (nil : P [])
    (blank : ∀ c s, isBlank c = true → P (trimLeft s) → P (c :: s))
    (solid : ∀ c s, isBlank c = false → P s → P (c :: s)) (s : Text) : P s := by
  fun_induction collapse (.char ' ') s with
  | case1 => exact nil
  | case2 c s hc ih => exact blank c s hc ih
  | case3 c s hc ih => exact solid c s (Bool.eq_false_iff.2 hc) ih

theorem collapse_of_solid {s : Text} (h : Solid s) : collapse f s = s := by
  induction s with
  | nil => exact collapse_nil
  | cons c s ih =>
    rw [solid_cons] at h
    rw [collapse_cons_of_solid h.1, ih h.2]

theorem collapse_of_allBlank {w : Text} (hne : w ≠ []) (hw : allBlank w = true) :
    collapse f w = [f] := by
  obtain ⟨c, w, rfl⟩ := List.exists_cons_of_ne_nil hne
  rw [allBlank_cons, Bool.and_eq_true] at hw
  rw [collapse_cons_of_blank hw.1, trimLeft_of_allBlank hw.2, collapse_nil]

theorem collapse_eq_nil_iff {s : Text} : collapse f s = [] ↔ s = [] := by
  cases s with
  | nil => simp
  | cons c s =>
    cases hc : isBlank c with
    | true => simp [collapse_cons_of_blank hc]
    | false => simp [collapse_cons_of_solid hc]

theorem mem_collapse {s : Text} {d : CodePoint} (h : d ∈ collapse f s) :
    d = f ∨ isBlank d = false ∧ d ∈ s := by
  induction s using collapseInduction with
  | nil => simp at h
  | blank c s hc ih =>
    rw [collapse_cons_of_blank hc, List.mem_cons] at h
    rcases h with hFiller | hRest
    · exact Or.inl hFiller
    · refine (ih hRest).imp_right (And.imp_right fun hMem => ?_)
      exact List.mem_cons_of_mem c ((List.dropWhile_sublist isBlank).subset hMem)
  | solid c s hc ih =>
    rw [collapse_cons_of_solid hc, List.mem_cons] at h
    rcases h with rfl | hRest
    · exact Or.inr ⟨hc, List.mem_cons_self⟩
    · exact (ih hRest).imp_right (And.imp_right (List.mem_cons_of_mem c))

theorem forall_mem_collapse {P : CodePoint → Prop} (hf : P f) {s : Text} (h : ∀ c ∈ s, P c) :
    ∀ c ∈ collapse f s, P c := by
  intro c hc
  rcases mem_collapse hc with rfl | ⟨-, hMem⟩
  · exact hf
  · exact h c hMem

/-- Characters that are not blank are neither lost nor gained. -/
theorem mem_collapse_iff {s : Text} {d : CodePoint} (hd : isBlank d = false) (hf : d ≠ f) :
    d ∈ collapse f s ↔ d ∈ s := by
  constructor
  · intro h
    exact ((mem_collapse h).resolve_left hf).2
  · intro h
    induction s using collapseInduction with
    | nil => cases h
    | blank c s hc ih =>
      rw [collapse_cons_of_blank hc]
      apply List.mem_cons_of_mem
      apply ih
      rcases List.mem_cons.1 h with rfl | hMem
      · rw [hc] at hd
        contradiction
      · obtain ⟨w, hw, hs⟩ := exists_trimLeft s
        rw [hs] at hMem
        exact (List.mem_append.1 hMem).resolve_left (not_mem_of_allBlank hw hd)
    | solid c s hc ih =>
      rw [collapse_cons_of_solid hc]
      rcases List.mem_cons.1 h with rfl | hMem
      · exact List.mem_cons_self
      · exact List.mem_cons_of_mem c (ih hMem)

/-! ## Two texts -/

theorem collapse_append_cons (hc : isBlank c = false) (s t : Text) :
    collapse f (s ++ c :: t) = collapse f s ++ c :: collapse f t := by
  induction s using collapseInduction with
  | nil => rw [List.nil_append, collapse_cons_of_solid hc, collapse_nil, List.nil_append]
  | blank d s hd ih =>
    rw [List.cons_append, collapse_cons_of_blank hd, trimLeft_append_cons hc, ih,
      collapse_cons_of_blank hd]
    rfl
  | solid d s hd ih =>
    rw [List.cons_append, collapse_cons_of_solid hd, ih, collapse_cons_of_solid hd]
    rfl

theorem collapse_append {s : Text} (h : ∀ c ∈ s.getLast?, isBlank c = false) (t : Text) :
    collapse f (s ++ t) = collapse f s ++ collapse f t := by
  cases hLast : s.getLast? with
  | none => rw [List.getLast?_eq_none_iff.1 hLast, List.nil_append, collapse_nil, List.nil_append]
  | some c =>
    obtain ⟨front, rfl⟩ := List.getLast?_eq_some_iff.1 hLast
    have hc := h c hLast
    rw [List.append_assoc, List.singleton_append, collapse_append_cons hc,
      collapse_append_cons hc, collapse_nil, List.append_assoc, List.singleton_append]

theorem allBlank_collapse (hf : isBlank f = true) {s : Text} (hs : allBlank s = true) :
    allBlank (collapse f s) = true := by
  rw [allBlank_iff] at hs ⊢
  intro c hc
  rcases mem_collapse hc with rfl | ⟨-, hMem⟩
  · exact hf
  · exact hs c hMem

/-! ## Runs of a class -/

theorem takeWhile_trimLeft {p : CodePoint → Bool} (hp : ∀ c, isBlank c = true → p c = true)
    (s : Text) : (trimLeft s).takeWhile p = trimLeft (s.takeWhile p) := by
  induction s with
  | nil => rfl
  | cons c s ih =>
    cases hc : isBlank c with
    | true =>
      rw [trimLeft_cons_of_blank hc, ih, List.takeWhile_cons_of_pos (hp c hc),
        trimLeft_cons_of_blank hc]
    | false =>
      rw [trimLeft_cons_of_solid hc, List.takeWhile_cons]
      split
      · rw [trimLeft_cons_of_solid hc]
      · rfl

theorem dropWhile_trimLeft {p : CodePoint → Bool} (hp : ∀ c, isBlank c = true → p c = true)
    (s : Text) : (trimLeft s).dropWhile p = s.dropWhile p := by
  obtain ⟨w, hw, hs⟩ := exists_trimLeft s
  calc
    (trimLeft s).dropWhile p = (w ++ trimLeft s).dropWhile p :=
      (List.dropWhile_append_of_pos fun c hc => hp c (allBlank_iff.1 hw c hc)).symm
    _ = s.dropWhile p := by rw [← hs]

theorem takeWhile_collapse {p : CodePoint → Bool} (hp : ∀ c, isBlank c = true → p c = p f)
    (s : Text) : (collapse f s).takeWhile p = collapse f (s.takeWhile p) := by
  induction s using collapseInduction with
  | nil => rw [collapse_nil, List.takeWhile_nil, collapse_nil]
  | blank c s hc ih =>
    rw [collapse_cons_of_blank hc]
    cases hf : p f with
    | true =>
      have hBlank : ∀ d, isBlank d = true → p d = true := fun d hd => (hp d hd).trans hf
      rw [List.takeWhile_cons_of_pos hf, ih, List.takeWhile_cons_of_pos (hBlank c hc),
        collapse_cons_of_blank hc, takeWhile_trimLeft hBlank]
    | false =>
      have hNone : ¬ p c = true := by rw [hp c hc, hf]; exact Bool.false_ne_true
      rw [List.takeWhile_cons_of_neg (by rw [hf]; exact Bool.false_ne_true),
        List.takeWhile_cons_of_neg hNone, collapse_nil]
  | solid c s hc ih =>
    rw [collapse_cons_of_solid hc, List.takeWhile_cons, List.takeWhile_cons]
    split
    · rw [ih, collapse_cons_of_solid hc]
    · exact collapse_nil.symm

theorem dropWhile_collapse {p : CodePoint → Bool} (hp : ∀ c, isBlank c = true → p c = p f)
    (s : Text) : (collapse f s).dropWhile p = collapse f (s.dropWhile p) := by
  induction s using collapseInduction with
  | nil => rw [collapse_nil, List.dropWhile_nil, collapse_nil]
  | blank c s hc ih =>
    rw [collapse_cons_of_blank hc]
    cases hf : p f with
    | true =>
      have hBlank : ∀ d, isBlank d = true → p d = true := fun d hd => (hp d hd).trans hf
      rw [List.dropWhile_cons_of_pos hf, ih, List.dropWhile_cons_of_pos (hBlank c hc),
        dropWhile_trimLeft hBlank]
    | false =>
      have hNone : ¬ p c = true := by rw [hp c hc, hf]; exact Bool.false_ne_true
      rw [List.dropWhile_cons_of_neg (by rw [hf]; exact Bool.false_ne_true),
        List.dropWhile_cons_of_neg hNone, collapse_cons_of_blank hc]
  | solid c s hc ih =>
    rw [collapse_cons_of_solid hc, List.dropWhile_cons, List.dropWhile_cons]
    split
    · exact ih
    · exact (collapse_cons_of_solid hc s).symm

/-! ## Both ends -/

theorem trimLeft_collapse (hf : isBlank f = true) (s : Text) :
    trimLeft (collapse f s) = collapse f (trimLeft s) :=
  dropWhile_collapse (fun c hc => by rw [hc, hf]) s

theorem trimRight_collapse (hf : isBlank f = true) (s : Text) :
    trimRight (collapse f s) = collapse f (trimRight s) := by
  obtain ⟨w, hw, hs⟩ := exists_trimRight s
  have hLast : ∀ c ∈ (trimRight s).getLast?, isBlank c = false := isBlank_of_getLast?_trimRight
  have hSplit : collapse f s = collapse f (trimRight s) ++ collapse f w := by
    rw [← collapse_append hLast, ← hs]
  rw [hSplit, trimRight_append (allBlank_collapse hf hw)]
  apply trimRight_eq_self
  cases hEnd : (trimRight s).getLast? with
  | none => simp [List.getLast?_eq_none_iff.1 hEnd]
  | some c =>
    obtain ⟨front, hFront⟩ := List.getLast?_eq_some_iff.1 hEnd
    have hc := hLast c hEnd
    rw [hFront, collapse_append_cons hc, collapse_nil]
    intro d hd
    rw [List.getLast?_concat, Option.mem_some_iff] at hd
    exact hd ▸ hc

theorem trim_collapse (hf : isBlank f = true) (s : Text) :
    trim (collapse f s) = collapse f (trim s) := by
  rw [trim, trimLeft_collapse hf, trimRight_collapse hf, trim]

/-! ## Readers that do not see the filler -/

theorem collapse_collapse (hf : isBlank f = true) (g : CodePoint) (s : Text) :
    collapse g (collapse f s) = collapse g s := by
  induction s using collapseInduction with
  | nil => rw [collapse_nil]
  | blank c s hc ih =>
    rw [collapse_cons_of_blank hc, collapse_cons_of_blank hf, trimLeft_collapse hf,
      trimLeft_trimLeft, ih, collapse_cons_of_blank hc]
  | solid c s hc ih =>
    rw [collapse_cons_of_solid hc, collapse_cons_of_solid hc, ih, collapse_cons_of_solid hc]

theorem solid_of_solid_collapse (hf : isBlank f = true) {s : Text} (h : Solid (collapse f s)) :
    Solid s := by
  induction s using collapseInduction with
  | nil => rwa [collapse_nil] at h
  | blank c s hc ih =>
    rw [collapse_cons_of_blank hc, solid_cons, hf] at h
    exact absurd h.1 (by simp)
  | solid c s hc ih =>
    rw [collapse_cons_of_solid hc, solid_cons] at h
    exact solid_cons.2 ⟨hc, ih h.2⟩

theorem apply_collapse {α : Type} {F : Text → α} {a : α} (hf : isBlank f = true)
    (h : ∀ s, ¬ Solid s → F s = a) (s : Text) : F (collapse f s) = F s := by
  by_cases hs : Solid s
  · rw [collapse_of_solid hs]
  · rw [h _ fun hSolid => hs (solid_of_solid_collapse hf hSolid), h s hs]

end StyleScaffold.Text
