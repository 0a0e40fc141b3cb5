import StyleScaffold.Proofs.Css.MinifiedComment
import StyleScaffold.Proofs.Css.SolidLines

/-!
# The form of a minified stylesheet

Minification leaves no blank at an end and no two blanks together. With the semicolons in front of
a closing brace it is not as thorough: it passes each brace once, and of several semicolons in front
of a brace the last one goes, so that the one before comes next to the brace.

* `isTidy_minify`: the blanks of every minified stylesheet.
* `holdsAcrossBlanks_dropLastSemicolons_iff`: a semicolon is left in front of a closing brace where
  there were two.
* `minify_minify_iff`: these are the stylesheets that change when they are minified again.
-/

namespace StyleScaffold.Css

open Text

/-- Blanks stand one at a time. -/
def SingleBlanks (s : Text) : Prop :=
  ∀ c d, [c, d] <:+: s → isBlank c = true → isBlank d = false

/-- Blanks stand one at a time, and none stands at an end. -/
structure IsTidy (s : Text) : Prop where
  trimmed : Trimmed s
  single : SingleBlanks s

/-- The text without its blanks. -/
def visible (s : Text) : Text := s.filter (! isBlank ·)

/-- The marks stand in the text one behind the other, blanks aside. -/
def HoldsAcrossBlanks (marks s : Text) : Prop := marks <:+: visible s

instance (marks s : Text) : Decidable (HoldsAcrossBlanks marks s) :=
  inferInstanceAs (Decidable (marks <:+: visible s))

variable {s marks : Text} {c d f m : CodePoint}

/-! ## Single blanks -/

theorem singleBlanks_nil : SingleBlanks [] := by
  intro c d h
  cases List.infix_nil.1 h

theorem singleBlanks_cons :
    SingleBlanks (c :: s) ↔
      (∀ d ∈ s.head?, isBlank c = true → isBlank d = false) ∧ SingleBlanks s := by
  constructor
  · intro h
    refine ⟨fun d hd => h c d ?_, fun a b hab => h a b (hab.trans (List.suffix_cons c s).isInfix)⟩
    obtain ⟨rest, rfl⟩ := List.head?_eq_some_iff.1 hd
    exact (List.prefix_append [c, d] rest).isInfix
  · rintro ⟨hHead, hRest⟩ a b hab
    rcases List.infix_cons_iff.1 hab with hPrefix | hInfix
    · obtain ⟨rfl, rest, rfl⟩ := List.cons_prefix_cons.1 hPrefix
      exact hHead b rfl
    · exact hRest a b hInfix

theorem SingleBlanks.of_infix {t : Text} (ht : SingleBlanks t) (h : s <:+: t) : SingleBlanks s :=
  fun c d hcd => ht c d (hcd.trans h)

theorem singleBlanks_collapse (s : Text) : SingleBlanks (collapse f s) := by
  induction s using collapseInduction with
  | nil => simpa using singleBlanks_nil
  | blank c s hc ih =>
    rw [collapse_cons_of_blank hc, singleBlanks_cons]
    refine ⟨fun d hd _ => ?_, ih⟩
    cases hTrim : trimLeft s with
    | nil => simp [hTrim] at hd
    | cons e rest =>
      have he := not_isBlank_of_head_trimLeft hTrim
      rw [hTrim, collapse_cons_of_solid he, List.head?_cons, Option.mem_some_iff] at hd
      rw [← hd, he]
  | solid c s hc ih =>
    rw [collapse_cons_of_solid hc, singleBlanks_cons]
    exact ⟨fun d _ hBlank => absurd hBlank (by simp [hc]), ih⟩

theorem head?_dropLastSemicolons (s : Text) :
    ∀ d ∈ (dropLastSemicolons s).head?, d ∈ s.head? ∨ d = '}' := by
  induction s using semicolonInduction with
  | nil => simp
  | keep c s h ih =>
    rw [dropLastSemicolons_cons h]
    exact fun d hd => Or.inl hd
  | drop w rest hw ih =>
    rw [dropLastSemicolons_closing hw]
    exact fun d hd => Or.inr (Option.mem_some_iff.1 hd).symm

theorem SingleBlanks.dropLastSemicolons (h : SingleBlanks s) :
    SingleBlanks (dropLastSemicolons s) := by
  induction s using semicolonInduction with
  | nil => simpa using singleBlanks_nil
  | keep c s hKeep ih =>
    rw [singleBlanks_cons] at h
    rw [dropLastSemicolons_cons hKeep, singleBlanks_cons]
    refine ⟨fun d hd hc => ?_, ih h.2⟩
    rcases head?_dropLastSemicolons s d hd with hHead | rfl
    · exact h.1 d hHead hc
    · decide
  | drop w rest hw ih =>
    have hRest : rest <:+: .char ';' :: (w ++ .char '}' :: rest) :=
      ⟨.char ';' :: (w ++ [.char '}']), [], by simp⟩
    rw [dropLastSemicolons_closing hw, singleBlanks_cons]
    exact ⟨fun d _ hc => absurd hc (by decide), ih (h.of_infix hRest)⟩

theorem isTidy_minify (sheet : Text) : IsTidy (minify sheet) where
  trimmed := trimmed_trim _
  single := by
    obtain ⟨u, v, -, -, hEq⟩ :=
      exists_trim (dropLastSemicolons (collapse ' ' (withoutComments sheet)))
    exact (singleBlanks_collapse _).dropLastSemicolons.of_infix ⟨u, v, hEq.symm⟩

/-- Single blanks that are fillers already are left alone. -/
theorem SingleBlanks.collapse_eq (h : SingleBlanks s) (hf : ∀ c ∈ s, isBlank c = true → c = f) :
    collapse f s = s := by
  induction s with
  | nil => exact collapse_nil
  | cons c s ih =>
    rw [singleBlanks_cons] at h
    rw [List.forall_mem_cons] at hf
    cases hc : isBlank c with
    | false => rw [collapse_cons_of_solid hc, ih h.2 hf.2]
    | true =>
      have hTrim : trimLeft s = s := by
        cases s with
        | nil => rfl
        | cons d rest => exact trimLeft_cons_of_solid (h.1 d rfl hc) rest
      rw [collapse_cons_of_blank hc, hTrim, ih h.2 hf.2, hf.1 hc]

/-! ## Marks across blanks -/

theorem visible_cons_of_blank (hc : isBlank c = true) (s : Text) : visible (c :: s) = visible s :=
  List.filter_cons_of_neg (by simp [hc])

theorem visible_cons_of_solid (hc : isBlank c = false) (s : Text) :
    visible (c :: s) = c :: visible s :=
  List.filter_cons_of_pos (by simp [hc])

theorem visible_append_of_allBlank {w : Text} (hw : allBlank w = true) (s : Text) :
    visible (w ++ s) = visible s := by
  rw [visible, List.filter_append, filter_of_allBlank (fun c hc => by simp [hc]) hw,
    List.nil_append, visible]

theorem visible_trimLeft (s : Text) : visible (trimLeft s) = visible s := by
  obtain ⟨w, hw, hs⟩ := exists_trimLeft s
  conv => rhs; rw [hs, visible_append_of_allBlank hw]

theorem visible_trim (s : Text) : visible (trim s) = visible s :=
  filter_trim (fun c hc => by simp [hc]) s

theorem visible_collapse (hf : isBlank f = true) (s : Text) :
    visible (collapse f s) = visible s := by
  induction s using collapseInduction with
  | nil => rw [collapse_nil]
  | blank c s hc ih =>
    rw [collapse_cons_of_blank hc, visible_cons_of_blank hf, ih, visible_trimLeft,
      visible_cons_of_blank hc]
  | solid c s hc ih =>
    rw [collapse_cons_of_solid hc, visible_cons_of_solid hc, ih, visible_cons_of_solid hc]

theorem holdsAcrossBlanks_cons (hc : isBlank c = false) :
    HoldsAcrossBlanks (m :: marks) (c :: s) ↔
      m = c ∧ marks <+: visible s ∨ HoldsAcrossBlanks (m :: marks) s := by
  rw [HoldsAcrossBlanks, visible_cons_of_solid hc, List.infix_cons_iff, List.cons_prefix_cons,
    HoldsAcrossBlanks]

/-- What is seen first is a closing brace. -/
theorem closing_prefix_iff :
    [.char '}'] <+: visible s ↔ ∃ rest, trimLeft s = .char '}' :: rest := by
  rw [← visible_trimLeft]
  cases hTrim : trimLeft s with
  | nil => simp [visible]
  | cons d rest =>
    rw [visible_cons_of_solid (not_isBlank_of_head_trimLeft hTrim), List.cons_prefix_cons]
    simp [eq_comm]

/-- A semicolon is kept unless a closing brace is seen next. -/
theorem not_semicolon_of_keep (h : c = ';' → ∀ rest, trimLeft s ≠ .char '}' :: rest) :
    ¬ (.char ';' = c ∧ [.char '}'] <+: visible s) := by
  rw [closing_prefix_iff]
  rintro ⟨rfl, rest, hRest⟩
  exact h rfl rest hRest

theorem visible_closing {w : Text} (hw : allBlank w = true) (rest : Text) :
    visible (.char ';' :: (w ++ .char '}' :: rest)) = .char ';' :: .char '}' :: visible rest := by
  rw [visible_cons_of_solid (by decide), visible_append_of_allBlank hw,
    visible_cons_of_solid (by decide)]

theorem closing_prefix_dropLastSemicolons_iff :
    [.char '}'] <+: visible (dropLastSemicolons s) ↔
      [.char '}'] <+: visible s ∨ [.char ';', .char '}'] <+: visible s := by
  induction s using semicolonInduction with
  | nil => simp [visible]
  | keep c s h ih =>
    rw [dropLastSemicolons_cons h]
    cases hc : isBlank c with
    | true => rw [visible_cons_of_blank hc, visible_cons_of_blank hc, ih]
    | false =>
      rw [visible_cons_of_solid hc, visible_cons_of_solid hc, List.cons_prefix_cons,
        List.cons_prefix_cons, List.cons_prefix_cons, or_iff_left (not_semicolon_of_keep h)]
      simp
  | drop w rest hw ih =>
    rw [dropLastSemicolons_closing hw, visible_cons_of_solid (by decide), visible_closing hw]
    simp [List.cons_prefix_cons]

/-- A semicolon is left in front of a closing brace where there were two. -/
theorem holdsAcrossBlanks_dropLastSemicolons_iff :
    HoldsAcrossBlanks ";\x7d" (dropLastSemicolons s) ↔ HoldsAcrossBlanks ";;\x7d" s := by
  induction s using semicolonInduction with
  | nil =>
    rw [dropLastSemicolons_nil]
    decide
  | keep c s h ih =>
    rw [dropLastSemicolons_cons h]
    cases hc : isBlank c with
    | true =>
      rw [HoldsAcrossBlanks, visible_cons_of_blank hc, HoldsAcrossBlanks, visible_cons_of_blank hc]
      exact ih
    | false =>
      have hSeen : CodePoint.char ';' = c ∧ [.char '}'] <+: visible (dropLastSemicolons s) ↔
          .char ';' = c ∧ [.char ';', .char '}'] <+: visible s := by
        have := not_semicolon_of_keep h
        rw [closing_prefix_dropLastSemicolons_iff]
        grind
      exact (holdsAcrossBlanks_cons hc).trans
        ((or_congr hSeen ih).trans (holdsAcrossBlanks_cons hc).symm)
  | drop w rest hw ih =>
    have hFirst : HoldsAcrossBlanks ";\x7d" (.char '}' :: dropLastSemicolons rest) ↔
        HoldsAcrossBlanks ";\x7d" (dropLastSemicolons rest) :=
      (holdsAcrossBlanks_cons (by decide)).trans (or_iff_right fun h => absurd h.1 (by decide))
    have hSecond : HoldsAcrossBlanks ";;\x7d" (.char ';' :: (w ++ .char '}' :: rest)) ↔
        HoldsAcrossBlanks ";;\x7d" rest := by
      rw [HoldsAcrossBlanks, visible_closing hw]
      simp [ofString, List.infix_cons_iff, List.cons_prefix_cons, HoldsAcrossBlanks]
    rw [dropLastSemicolons_closing hw, hFirst, hSecond, ih]

/-! ## Minified texts -/

theorem dropLastSemicolons_sublist (s : Text) : (dropLastSemicolons s).Sublist s := by
  induction s using semicolonInduction with
  | nil => simp
  | keep c s h ih =>
    rw [dropLastSemicolons_cons h]
    exact ih.cons_cons c
  | drop w rest hw ih =>
    rw [dropLastSemicolons_closing hw]
    exact ((ih.cons_cons (.char '}')).trans (List.sublist_append_right w _)).cons (.char ';')

/-- Nothing is dropped where no semicolon stands in front of a closing brace. -/
theorem dropLastSemicolons_eq_self_iff :
    dropLastSemicolons s = s ↔ ¬ HoldsAcrossBlanks ";\x7d" s := by
  induction s using semicolonInduction with
  | nil => exact iff_of_true dropLastSemicolons_nil (by decide)
  | keep c s h ih =>
    rw [dropLastSemicolons_cons h, List.cons.injEq, and_iff_right rfl, ih]
    refine not_congr ?_
    cases hc : isBlank c with
    | true => rw [HoldsAcrossBlanks, HoldsAcrossBlanks, visible_cons_of_blank hc]
    | false =>
      exact ((holdsAcrossBlanks_cons hc).trans (or_iff_right (not_semicolon_of_keep h))).symm
  | drop w rest hw ih =>
    refine iff_of_false (fun hEq => ?_) (not_not_intro ?_)
    · have hLength := congrArg List.length hEq
      have hRest := (dropLastSemicolons_sublist rest).length_le
      rw [dropLastSemicolons_closing hw] at hLength
      simp only [List.length_cons, List.length_append] at hLength
      omega
    · rw [HoldsAcrossBlanks, visible_closing hw]
      exact (List.prefix_append [CodePoint.char ';', CodePoint.char '}'] _).isInfix

/-- The blanks of a minified stylesheet are spaces. -/
theorem eq_space_of_mem_minify {sheet : Text} (hc : c ∈ minify sheet) (hBlank : isBlank c = true) :
    c = ' ' := by
  have hMem := (dropLastSemicolons_sublist _).subset ((trim_sublist _).subset hc)
  rcases mem_collapse hMem with hSpace | ⟨hSolid, -⟩
  · exact hSpace
  · rw [hSolid] at hBlank
    contradiction

/-- A minified stylesheet without comments is minified again by looking at its semicolons alone. -/
theorem minify_minify_eq {sheet : Text} (h : hasComment sheet = false) :
    minify (minify sheet) = dropLastSemicolons (minify sheet) := by
  have hNone : hasComment (minify sheet) = false := by
    rw [hasComment_minify_eq, withoutComments_eq_self h, h]
  have hTidy := isTidy_minify sheet
  calc
    minify (minify sheet) = trim (dropLastSemicolons (collapse ' ' (minify sheet))) := by
      rw [minify, withoutComments_eq_self hNone]
    _ = trim (dropLastSemicolons (minify sheet)) := by
      rw [hTidy.single.collapse_eq fun c hc hBlank => eq_space_of_mem_minify hc hBlank]
    _ = dropLastSemicolons (minify sheet) := by
      rw [trim_dropLastSemicolons, hTidy.trimmed.trim_eq]

/-- Not every minified stylesheet is in normal form: of two semicolons in front of a closing brace
one is left, which goes when the stylesheet is minified again. -/
theorem not_isNormal_minify :
    ¬ ∀ sheet : Text, holds "/*" sheet = false →
      IsTidy (minify sheet) ∧ ¬ HoldsAcrossBlanks ";\x7d" (minify sheet) ∧
        minify (minify sheet) = minify sheet := by
  intro h
  obtain ⟨-, -, hTwice⟩ := h "a\x7bb:c;;\x7d" (by decide +kernel)
  exact absurd hTwice (by decide +kernel)

/-- A stylesheet without comments, in particular one without an opening (`hasComment_of_holds`), is
minified to a text with single blanks between other characters. A semicolon stands in front of a
closing brace in it, and goes when it is minified again, exactly if two semicolons stand in front
of a closing brace in the stylesheet. -/
theorem minify_minify_iff (sheet : Text) (h : hasComment sheet = false) :
    IsTidy (minify sheet) ∧
      (HoldsAcrossBlanks ";\x7d" (minify sheet) ↔ HoldsAcrossBlanks ";;\x7d" sheet) ∧
      (minify (minify sheet) = minify sheet ↔ ¬ HoldsAcrossBlanks ";;\x7d" sheet) := by
  have hLast : HoldsAcrossBlanks ";\x7d" (minify sheet) ↔ HoldsAcrossBlanks ";;\x7d" sheet :=
    calc
      HoldsAcrossBlanks ";\x7d" (minify sheet)
          ↔ HoldsAcrossBlanks ";\x7d" (dropLastSemicolons (collapse ' ' sheet)) := by
        rw [HoldsAcrossBlanks, minify, visible_trim, withoutComments_eq_self h, HoldsAcrossBlanks]
      _ ↔ HoldsAcrossBlanks ";;\x7d" (collapse ' ' sheet) :=
        holdsAcrossBlanks_dropLastSemicolons_iff
      _ ↔ HoldsAcrossBlanks ";;\x7d" sheet := by
        rw [HoldsAcrossBlanks, visible_collapse (by decide), HoldsAcrossBlanks]
  refine ⟨isTidy_minify sheet, hLast, ?_⟩
  rw [minify_minify_eq h, dropLastSemicolons_eq_self_iff, hLast]

/-- Three semicolons in front of a closing brace, with blanks between them and around. -/
def threeSemicolons : Text := " a \x7b b: c ;\n; ;\x7d "

theorem minify_threeSemicolons :
    hasComment threeSemicolons = false ∧ HoldsAcrossBlanks ";;\x7d" threeSemicolons ∧
      minify threeSemicolons = "a \x7b b: c ; ; \x7d" ∧
      minify (minify threeSemicolons) ≠ minify threeSemicolons := by
  have hNone : hasComment threeSemicolons = false := by decide +kernel
  have hTwo : HoldsAcrossBlanks ";;\x7d" threeSemicolons := by decide +kernel
  obtain ⟨-, -, hAgain⟩ := minify_minify_iff threeSemicolons hNone
  exact ⟨hNone, hTwo, by decide +kernel, fun hEq => hAgain.1 hEq hTwo⟩

end StyleScaffold.Css
