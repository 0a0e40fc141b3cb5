import StyleScaffold.Css.Analysis
import StyleScaffold.Proofs.Css.Rewriting

/-!
# Last semicolons

A semicolon is dropped when a closing brace comes next to it, blanks aside, and those blanks go with
it. Every text is taken apart by this rule in one way (`semicolonInduction`).

* `isRewriting_dropLastSemicolons`: dropping them is a rewriting.
* `trimLeft_dropLastSemicolons`, `trimRight_dropLastSemicolons`: trimming may come before or after.
* `takeWhile_dropLastSemicolons`: a run of characters ends at the same place, provided that the class
  has all blanks in it and does not tell a semicolon from a closing brace.
-/

namespace StyleScaffold.Css

open Text

variable {c : CodePoint} {s : Text}

/-! ## Character by character -/

@[simp] theorem dropLastSemicolons_nil : dropLastSemicolons [] = [] := by rw [dropLastSemicolons]

theorem startsWith_closing_iff :
    startsWith "\x7d" s = true ↔ ∃ rest, s = .char '}' :: rest := by
  rw [startsWith, Option.isSome_iff_exists]
  exact exists_congr fun rest => strip?_eq_some_iff

theorem dropLastSemicolons_cons (h : c = ';' → ∀ rest, trimLeft s ≠ .char '}' :: rest) :
    dropLastSemicolons (c :: s) = c :: dropLastSemicolons s := by
  rw [dropLastSemicolons, if_neg]
  rintro ⟨hc, hClosing⟩
  obtain ⟨rest, hRest⟩ := startsWith_closing_iff.1 hClosing
  exact h hc rest hRest

theorem dropLastSemicolons_cons_of_ne (hc : c ≠ ';') (s : Text) :
    dropLastSemicolons (c :: s) = c :: dropLastSemicolons s :=
  dropLastSemicolons_cons fun h => absurd h hc

theorem trimLeft_append_closing {w : Text} (hw : allBlank w = true) (rest : Text) :
    trimLeft (w ++ .char '}' :: rest) = .char '}' :: rest := by
  rw [trimLeft_append hw, trimLeft_cons_of_solid (by decide)]

theorem dropLastSemicolons_closing {w : Text} (hw : allBlank w = true) (rest : Text) :
    dropLastSemicolons (.char ';' :: (w ++ .char '}' :: rest)) =
      .char '}' :: dropLastSemicolons rest := by
  have hTrim := trimLeft_append_closing hw rest
  rw [dropLastSemicolons, hTrim, if_pos ⟨rfl, startsWith_closing_iff.2 ⟨rest, rfl⟩⟩,
    dropLastSemicolons_cons_of_ne (by decide)]

/-- A text begins with a character that is kept, or with a semicolon that is dropped. -/
theorem semicolonInduction {P : Text → Prop} (nil : P [])
    (keep : ∀ (c : CodePoint) s, (c = ';' → ∀ rest, trimLeft s ≠ .char '}' :: rest) → P s → P (c :: s))
    (drop : ∀ w rest, allBlank w = true → P rest → P (.char ';' :: (w ++ .char '}' :: rest)))
    (s : Text) : P s := by
  induction hLength : s.length using Nat.strongRecOn generalizing s with
  | ind n ih =>
    cases s with
    | nil => exact nil
    | cons c s =>
      subst hLength
      by_cases h : c = ';' ∧ ∃ rest, trimLeft s = .char '}' :: rest
      · obtain ⟨rfl, rest, hRest⟩ := h
        obtain ⟨w, hw, hs⟩ := exists_trimLeft s
        rw [hRest] at hs
        subst hs
        refine drop w rest hw (ih rest.length ?_ rest rfl)
        simp only [List.length_cons, List.length_append]
        omega
      · refine keep c s ?_ (ih s.length (by simp) s rfl)
        intro hc rest hRest
        exact h ⟨hc, rest, hRest⟩

theorem isRewriting_dropLastSemicolons : IsRewriting dropLastSemicolons where
  nil := dropLastSemicolons_nil
  step := by
    intro c s
    by_cases h : c = ';' ∧ ∃ rest, trimLeft s = .char '}' :: rest
    · obtain ⟨rfl, rest, hRest⟩ := h
      obtain ⟨w, hw, hs⟩ := exists_trimLeft s
      rw [hRest] at hs
      subst hs
      refine Or.inr ⟨by decide, w, .char '}' :: rest, [], rfl, ?_, ?_, ?_⟩
      · rw [dropLastSemicolons_closing hw, dropLastSemicolons_cons_of_ne (by decide),
          List.nil_append]
      · intro d hd
        rw [List.append_nil] at hd
        exact isGapChar_iff.2 (Or.inl (allBlank_iff.1 hw d hd))
      · intro _ d hd
        rw [List.head?_cons, Option.mem_some_iff] at hd
        exact hd.symm
    · refine Or.inl (dropLastSemicolons_cons ?_)
      intro hc rest hRest
      exact h ⟨hc, rest, hRest⟩

/-! ## Text around a text -/

theorem dropLastSemicolons_append {u : Text} (hu : (';' : CodePoint) ∉ u) (s : Text) :
    dropLastSemicolons (u ++ s) = u ++ dropLastSemicolons s := by
  induction u with
  | nil => rfl
  | cons c u ih =>
    rw [List.mem_cons, not_or] at hu
    rw [List.cons_append, dropLastSemicolons_cons_of_ne (Ne.symm hu.1), ih hu.2, List.cons_append]

theorem dropLastSemicolons_of_not_mem (hs : (';' : CodePoint) ∉ s) : dropLastSemicolons s = s := by
  have h := dropLastSemicolons_append hs []
  rwa [List.append_nil, dropLastSemicolons_nil, List.append_nil] at h

/-- No semicolon is last in front of an opening brace, unless a closing brace is there. -/
theorem dropLastSemicolons_append_opening {u : Text} (hu : (.char '}') ∉ u) (t : Text) :
    dropLastSemicolons (u ++ .char '{' :: t) = u ++ .char '{' :: dropLastSemicolons t := by
  induction u with
  | nil => exact dropLastSemicolons_cons_of_ne (by decide) t
  | cons c u ih =>
    rw [List.mem_cons, not_or] at hu
    rw [List.cons_append, dropLastSemicolons_cons, ih hu.2, List.cons_append]
    intro _ rest hRest
    rw [trimLeft_append_cons (by decide)] at hRest
    cases hTrim : trimLeft u with
    | nil =>
      rw [hTrim] at hRest
      cases hRest
    | cons d more =>
      rw [hTrim, List.cons_append, List.cons.injEq] at hRest
      have hMem : d ∈ trimLeft u := by rw [hTrim]; exact List.mem_cons_self
      rw [hRest.1] at hMem
      exact hu.2 ((List.dropWhile_sublist isBlank).subset hMem)

theorem dropLastSemicolons_append_blank {w : Text} (hw : allBlank w = true) (s : Text) :
    dropLastSemicolons (s ++ w) = dropLastSemicolons s ++ w := by
  induction s using semicolonInduction with
  | nil =>
    rw [List.nil_append, dropLastSemicolons_nil, List.nil_append]
    exact dropLastSemicolons_of_not_mem (not_mem_of_allBlank hw (by decide))
  | keep c s h ih =>
    rw [List.cons_append, dropLastSemicolons_cons h, dropLastSemicolons_cons, ih, List.cons_append]
    intro hc rest hRest
    obtain ⟨v, hv, hs⟩ := exists_trimLeft s
    rw [hs, List.append_assoc, trimLeft_append hv] at hRest
    cases hTrim : trimLeft s with
    | nil =>
      rw [hTrim, List.nil_append, trimLeft_of_allBlank hw] at hRest
      cases hRest
    | cons d t =>
      rw [hTrim, List.cons_append, trimLeft_cons_of_solid (not_isBlank_of_head_trimLeft hTrim),
        List.cons.injEq] at hRest
      exact h hc t (by rw [hTrim, hRest.1])
  | drop v rest hv ih =>
    rw [List.cons_append, List.append_assoc, List.cons_append, dropLastSemicolons_closing hv,
      dropLastSemicolons_closing hv, ih, List.cons_append]

theorem getLast?_dropLastSemicolons (s : Text) :
    (dropLastSemicolons s).getLast? = s.getLast? := by
  induction s using semicolonInduction with
  | nil => rw [dropLastSemicolons_nil]
  | keep c s h ih => rw [dropLastSemicolons_cons h, List.getLast?_cons, List.getLast?_cons, ih]
  | drop w rest hw ih =>
    rw [dropLastSemicolons_closing hw, List.getLast?_cons, ih, List.getLast?_cons,
      List.getLast?_append, List.getLast?_cons, Option.some_or, Option.getD_some]

theorem trimRight_dropLastSemicolons (s : Text) :
    trimRight (dropLastSemicolons s) = dropLastSemicolons (trimRight s) := by
  obtain ⟨w, hw, hs⟩ := exists_trimRight s
  calc
    trimRight (dropLastSemicolons s) = trimRight (dropLastSemicolons (trimRight s) ++ w) := by
      rw [← dropLastSemicolons_append_blank hw, ← hs]
    _ = trimRight (dropLastSemicolons (trimRight s)) := trimRight_append hw _
    _ = dropLastSemicolons (trimRight s) := by
      apply trimRight_eq_self
      rw [getLast?_dropLastSemicolons]
      exact isBlank_of_getLast?_trimRight

/-! ## Runs of a class -/

variable {p : CodePoint → Bool}

theorem takeWhile_dropLastSemicolons (hBlank : ∀ c, isBlank c = true → p c = true)
    (hSame : p (.char ';') = p (.char '}')) (s : Text) :
    (dropLastSemicolons s).takeWhile p = dropLastSemicolons (s.takeWhile p) := by
  induction s using semicolonInduction with
  | nil => rw [dropLastSemicolons_nil, List.takeWhile_nil, dropLastSemicolons_nil]
  | keep c s h ih =>
    rw [dropLastSemicolons_cons h, List.takeWhile_cons, List.takeWhile_cons, ih]
    split
    · refine (dropLastSemicolons_cons ?_).symm
      intro hc rest hRest
      rw [← takeWhile_trimLeft hBlank] at hRest
      obtain ⟨more, hMore⟩ := List.takeWhile_prefix p (l := trimLeft s)
      rw [hRest] at hMore
      exact h hc (rest ++ more) hMore.symm
    · exact dropLastSemicolons_nil.symm
  | drop w rest hw ih =>
    have hAll : ∀ c ∈ w, p c = true := fun c hc => hBlank c (allBlank_iff.1 hw c hc)
    rw [dropLastSemicolons_closing hw, List.takeWhile_cons, List.takeWhile_cons, hSame, ih]
    split
    · rename_i hClosing
      rw [List.takeWhile_append_of_pos hAll, List.takeWhile_cons_of_pos hClosing,
        dropLastSemicolons_closing hw]
    · exact dropLastSemicolons_nil.symm

theorem dropWhile_dropLastSemicolons (hBlank : ∀ c, isBlank c = true → p c = true)
    (hSame : p (.char ';') = p (.char '}')) (s : Text) :
    (dropLastSemicolons s).dropWhile p = dropLastSemicolons (s.dropWhile p) := by
  induction s using semicolonInduction with
  | nil => rw [dropLastSemicolons_nil, List.dropWhile_nil, dropLastSemicolons_nil]
  | keep c s h ih =>
    rw [dropLastSemicolons_cons h, List.dropWhile_cons, List.dropWhile_cons, ih]
    split
    · rfl
    · exact (dropLastSemicolons_cons h).symm
  | drop w rest hw ih =>
    have hAll : ∀ c ∈ w, p c = true := fun c hc => hBlank c (allBlank_iff.1 hw c hc)
    rw [dropLastSemicolons_closing hw, List.dropWhile_cons, List.dropWhile_cons, hSame, ih]
    split
    · rename_i hClosing
      rw [List.dropWhile_append_of_pos hAll, List.dropWhile_cons_of_pos hClosing]
    · exact (dropLastSemicolons_closing hw rest).symm

theorem trimLeft_dropLastSemicolons (s : Text) :
    trimLeft (dropLastSemicolons s) = dropLastSemicolons (trimLeft s) :=
  dropWhile_dropLastSemicolons (fun _ h => h) (by decide) s

theorem trim_dropLastSemicolons (s : Text) :
    trim (dropLastSemicolons s) = dropLastSemicolons (trim s) := by
  rw [trim, trimLeft_dropLastSemicolons, trimRight_dropLastSemicolons, trim]

end StyleScaffold.Css
