import StyleScaffold.Proofs.Css.Comment
import StyleScaffold.Proofs.Text.Collapse
import StyleScaffold.Proofs.Text.LowerCase
import StyleScaffold.Text.Digit
import StyleScaffold.Text.Hex
import StyleScaffold.Text.WordChar

/-!
# Rewriting the gaps of a text

Minification touches the gaps of a stylesheet only, the blanks and semicolons in it. A rewriting
(`IsRewriting`) goes through a text and keeps each character or exchanges a gap. Where it leaves a
gap out altogether, a closing brace or nothing follows. Marks and runs of other characters are then
found in the rewritten text where they were, with the rewritten rest behind them.

* `strip?_rewriting`, `run?_rewriting`: the steps of a recogniser.
* `hasComment_rewriting`: no comment is made, and none is lost.
* `isRewriting_collapse`: collapsing is a rewriting.
-/

namespace StyleScaffold.Css

open Text

/-- Blanks and semicolons stand in gaps. -/
def isGapChar (c : CodePoint) : Bool := isBlank c || c = ';'

/-- What neither stands in a gap nor closes a group. -/
def isCore (c : CodePoint) : Bool := ! isGapChar c && c ≠ '}'

/-- Every character is kept, or it begins a gap that is exchanged for a filler. The filler is empty
only at the end of the text and in front of a closing brace. -/
structure IsRewriting (T : Text → Text) : Prop where
  nil : T [] = []
  step : ∀ c s, T (c :: s) = c :: T s ∨
    isGapChar c = true ∧ ∃ skipped rest filler, s = skipped ++ rest ∧
      T (c :: s) = filler ++ T rest ∧ (∀ d ∈ skipped ++ filler, isGapChar d = true) ∧
      (filler = [] → ∀ d ∈ rest.head?, d = '}')

variable {T : Text → Text} {p : CodePoint → Bool} {c : CodePoint} {s : Text}

theorem isGapChar_iff : isGapChar c = true ↔ isBlank c = true ∨ c = ';' := by
  simp [isGapChar]

theorem isCore_iff : isCore c = true ↔ isGapChar c = false ∧ c ≠ '}' := by
  simp [isCore]

theorem isBlank_of_isCore (h : isCore c = true) : isBlank c = false := by
  have hGap := (isCore_iff.1 h).1
  rw [isGapChar, Bool.or_eq_false_iff] at hGap
  exact hGap.1

/-! ## Classes that have no part in gaps -/

/-- The numbers of the semicolon, the closing brace and the blanks. -/
def looseNumbers : List Nat :=
  [0x3B, 0x7D, 0x20, 0x09, 0x0A, 0x0B, 0x0C, 0x0D, 0x1C, 0x1D, 0x1E, 0x1F, 0x85, 0xA0, 0x1680,
    0x2000, 0x2001, 0x2002, 0x2003, 0x2004, 0x2005, 0x2006, 0x2007, 0x2008, 0x2009, 0x200A,
    0x2028, 0x2029, 0x202F, 0x205F, 0x3000]

theorem toNat_mem_looseNumbers (h : isCore c = false) : c.toNat ∈ looseNumbers := by
  by_cases hSemicolon : c = ';'
  · subst hSemicolon
    decide
  by_cases hClosing : c = '}'
  · subst hClosing
    decide
  have hBlank : isBlank c = true := by simpa [isCore, isGapChar, hSemicolon, hClosing] using h
  simp only [isBlank, Bool.or_eq_true, Bool.and_eq_true, decide_eq_true_eq, beq_iff_eq] at hBlank
  simp only [looseNumbers, List.mem_cons, List.not_mem_nil]
  omega

theorem isCore_of_toNat (h : c.toNat ∉ looseNumbers) : isCore c = true := by
  rw [← Bool.not_eq_false]
  intro hLoose
  exact h (toNat_mem_looseNumbers hLoose)

theorem isCore_of_isWordChar (h : isWordChar c = true) : isCore c = true := by
  have hNone : ∀ n ∈ looseNumbers, covered wordRanges n = false := by decide +kernel
  apply isCore_of_toNat
  intro hLoose
  rw [isWordChar, hNone _ hLoose] at h
  contradiction

theorem isCore_of_isDigit (h : isDigit c = true) : isCore c = true := by
  have hNone : ∀ n ∈ looseNumbers,
      (digitZeros.find? fun row => row ≤ n && n < row + 10) = none := by decide +kernel
  apply isCore_of_toNat
  intro hLoose
  rw [isDigit, digitValue?, hNone _ hLoose] at h
  contradiction

theorem isCore_of_isAsciiAlnum (h : isAsciiAlnum c = true) : isCore c = true := by
  have hNone : ∀ n ∈ looseNumbers, ¬ ((0x30 ≤ n ∧ n ≤ 0x39) ∨ (0x61 ≤ n ∧ n ≤ 0x7A) ∨
      (0x41 ≤ n ∧ n ≤ 0x5A)) := by decide
  apply isCore_of_toNat
  intro hLoose
  rw [isAsciiAlnum_iff, isAsciiLetter_iff] at h
  exact hNone _ hLoose h

theorem isCore_of_isNameChar (h : isNameChar c = true) : isCore c = true := by
  rw [isNameChar, Bool.or_eq_true, Bool.or_eq_true, beq_iff_eq, beq_iff_eq] at h
  rcases h with (hAlnum | rfl) | rfl
  · exact isCore_of_isAsciiAlnum hAlnum
  · decide
  · decide

theorem isCore_of_isHexDigit (h : isHexDigit c = true) : isCore c = true := by
  apply isCore_of_isAsciiAlnum
  rw [isAsciiAlnum_iff, isAsciiLetter_iff]
  rw [isHexDigit, hexValue?] at h
  have le {a b : CodePoint} (hab : a ≤ b) : a.toNat ≤ b.toNat := hab
  split at h
  · rename_i hc
    exact Or.inl ⟨le hc.1, le hc.2⟩
  split at h
  · rename_i hc
    have hLow := le hc.1
    have hHigh := le hc.2
    simp only [CodePoint.toNat_char, Char.reduceToNat] at hLow hHigh
    omega
  split at h
  · rename_i hc
    have hLow := le hc.1
    have hHigh := le hc.2
    simp only [CodePoint.toNat_char, Char.reduceToNat] at hLow hHigh
    omega
  · contradiction

namespace IsRewriting

theorem keep (h : IsRewriting T) (hc : isGapChar c = false) (s : Text) : T (c :: s) = c :: T s := by
  rcases h.step c s with hKeep | ⟨hGap, -⟩
  · exact hKeep
  · rw [hc] at hGap
    contradiction

theorem keep_core (h : IsRewriting T) (hc : isCore c = true) (s : Text) : T (c :: s) = c :: T s :=
  h.keep (isCore_iff.1 hc).1 s

theorem append_core (h : IsRewriting T) {u : Text} (hu : ∀ c ∈ u, isCore c = true) (s : Text) :
    T (u ++ s) = u ++ T s := by
  induction u with
  | nil => rfl
  | cons c u ih =>
    rw [List.forall_mem_cons] at hu
    rw [List.cons_append, h.keep_core hu.1, ih hu.2, List.cons_append]

theorem eq_self_of_core (h : IsRewriting T) {u : Text} (hu : ∀ c ∈ u, isCore c = true) :
    T u = u := by
  have hAppend := h.append_core hu []
  rwa [List.append_nil, h.nil, List.append_nil] at hAppend

/-- The rest behind an exchanged gap is shorter, so a claim about it may be assumed. -/
theorem induction (h : IsRewriting T) {P : Text → Prop} (nil : P [])
    (keep : ∀ c s, T (c :: s) = c :: T s → P s → P (c :: s))
    (gap : ∀ c skipped rest filler, isGapChar c = true →
      T (c :: (skipped ++ rest)) = filler ++ T rest →
      (∀ d ∈ skipped ++ filler, isGapChar d = true) → P rest → P (c :: (skipped ++ rest)))
    (s : Text) : P s := by
  induction hLength : s.length using Nat.strongRecOn generalizing s with
  | ind n ih =>
    cases s with
    | nil => exact nil
    | cons c s =>
      subst hLength
      rcases h.step c s with hKeep | ⟨hc, skipped, rest, filler, rfl, hEq, hGap, -⟩
      · exact keep c s hKeep (ih s.length (by simp) s rfl)
      · refine gap c skipped rest filler hc hEq hGap (ih rest.length ?_ rest rfl)
        simp only [List.length_cons, List.length_append]
        omega

/-- Whether a text starts with a character of a class that has no part in gaps is not changed. -/
theorem any_head? (h : IsRewriting T) (hp : ∀ c, p c = true → isCore c = true) (s : Text) :
    (T s).head?.any p = s.head?.any p := by
  have hNone : ∀ {c}, isCore c = false → p c = false := by
    intro c hc
    rw [Bool.eq_false_iff]
    intro hTrue
    rw [hp c hTrue] at hc
    contradiction
  have hGapChar : ∀ {c}, isGapChar c = true → p c = false := by
    intro c hc
    apply hNone
    rw [isCore, hc]
    rfl
  cases s with
  | nil => rw [h.nil]
  | cons c s =>
    rcases h.step c s with hKeep | ⟨hc, skipped, rest, filler, -, hEq, hGap, hEmpty⟩
    · rw [hKeep]
      rfl
    · rw [hEq, List.head?_cons, Option.any_some, hGapChar hc]
      cases filler with
      | cons d filler =>
        rw [List.cons_append, List.head?_cons, Option.any_some]
        exact hGapChar (hGap d (by simp))
      | nil =>
        cases rest with
        | nil => rw [List.nil_append, h.nil]; rfl
        | cons d rest =>
          obtain rfl := hEmpty rfl d rfl
          rw [List.nil_append, h.keep (by decide), List.head?_cons, Option.any_some]
          exact hNone (by decide)

/-! ## Marks and runs -/

theorem strip?_rewriting (h : IsRewriting T) {lead : Text} (hLead : ∀ c ∈ lead, isCore c = true)
    (s : Text) : strip? lead (T s) = (strip? lead s).map T := by
  induction lead generalizing s with
  | nil => rfl
  | cons c lead ih =>
    rw [List.forall_mem_cons] at hLead
    have hHead := h.any_head? (p := (· = c)) (fun d hd => of_decide_eq_true hd ▸ hLead.1) s
    cases s with
    | nil => rw [h.nil]; rfl
    | cons d s =>
      by_cases hc : d = c
      · subst hc
        rw [h.keep_core hLead.1, strip?, strip?, if_pos rfl, if_pos rfl, ih hLead.2]
      · rw [List.head?_cons, Option.any_some, decide_eq_false hc] at hHead
        rw [strip?, if_neg (Ne.symm hc), Option.map_none]
        cases hT : T (d :: s) with
        | nil => rfl
        | cons e t =>
          rw [hT, List.head?_cons, Option.any_some, decide_eq_false_iff_not] at hHead
          rw [strip?, if_neg (Ne.symm hHead)]

theorem eq_append_iff (h : IsRewriting T) {lead t : Text} (hLead : ∀ c ∈ lead, isCore c = true) :
    T s = lead ++ t ↔ ∃ rest, s = lead ++ rest ∧ t = T rest := by
  rw [← strip?_eq_some_iff, h.strip?_rewriting hLead, Option.map_eq_some_iff]
  refine exists_congr fun rest => ?_
  rw [strip?_eq_some_iff, eq_comm (a := T rest)]

theorem takeWhile_eq_nil_of_head (hs : s.head?.any p = false) : s.takeWhile p = [] := by
  cases s with
  | nil => rfl
  | cons c s =>
    rw [List.head?_cons, Option.any_some] at hs
    exact List.takeWhile_cons_of_neg (by rw [hs]; exact Bool.false_ne_true)

theorem dropWhile_eq_self_of_head (hs : s.head?.any p = false) : s.dropWhile p = s := by
  cases s with
  | nil => rfl
  | cons c s =>
    rw [List.head?_cons, Option.any_some] at hs
    exact List.dropWhile_cons_of_neg (by rw [hs]; exact Bool.false_ne_true)

theorem takeWhile_rewriting (h : IsRewriting T) (hp : ∀ c, p c = true → isCore c = true)
    (s : Text) : (T s).takeWhile p = s.takeWhile p := by
  induction s with
  | nil => rw [h.nil]
  | cons c s ih =>
    cases hc : p c with
    | true =>
      rw [h.keep_core (hp c hc), List.takeWhile_cons_of_pos hc, ih, List.takeWhile_cons_of_pos hc]
    | false =>
      have hHead := h.any_head? hp (c :: s)
      rw [List.head?_cons, Option.any_some, hc] at hHead
      rw [takeWhile_eq_nil_of_head hHead, takeWhile_eq_nil_of_head (s := c :: s) hc]

theorem dropWhile_rewriting (h : IsRewriting T) (hp : ∀ c, p c = true → isCore c = true)
    (s : Text) : (T s).dropWhile p = T (s.dropWhile p) := by
  induction s with
  | nil => rw [h.nil, List.dropWhile_nil, h.nil]
  | cons c s ih =>
    cases hc : p c with
    | true =>
      rw [h.keep_core (hp c hc), List.dropWhile_cons_of_pos hc, ih, List.dropWhile_cons_of_pos hc]
    | false =>
      have hHead := h.any_head? hp (c :: s)
      rw [List.head?_cons, Option.any_some, hc] at hHead
      rw [dropWhile_eq_self_of_head hHead, dropWhile_eq_self_of_head (s := c :: s) hc]

theorem run?_rewriting (h : IsRewriting T) (hp : ∀ c, p c = true → isCore c = true) (s : Text) :
    run? p (T s) = (run? p s).map (Prod.map id T) := by
  unfold run? run
  rw [h.takeWhile_rewriting hp, h.dropWhile_rewriting hp]
  split <;> rfl

/-! ## Comments -/

theorem after?_rewriting (h : IsRewriting T) {mark : Text} (hMark : ∀ c ∈ mark, isCore c = true)
    (hne : mark ≠ []) (s : Text) : after? mark (T s) = (after? mark s).map T := by
  obtain ⟨m, marks, rfl⟩ := List.exists_cons_of_ne_nil hne
  have hStrip := h.strip?_rewriting hMark
  have afterGap : ∀ {u : Text}, (∀ d ∈ u, isGapChar d = true) → ∀ t,
      after? (m :: marks) (u ++ t) = after? (m :: marks) t := by
    intro u hu t
    induction u with
    | nil => rfl
    | cons d u ih =>
      rw [List.forall_mem_cons] at hu
      have hNe : ¬ m = d := by
        rintro rfl
        rw [(isCore_iff.1 (hMark m List.mem_cons_self)).1] at hu
        exact Bool.false_ne_true hu.1
      rw [List.cons_append, after?, strip?, if_neg hNe, ih hu.2]
  induction s using h.induction with
  | nil => rw [h.nil]; rfl
  | keep c s hKeep ih =>
    have hHere := hStrip (c :: s)
    rw [hKeep] at hHere ⊢
    rw [after?, after?, hHere]
    cases strip? (m :: marks) (c :: s) with
    | some rest => rfl
    | none => exact ih
  | gap c skipped rest filler hc hEq hGap ih =>
    rw [List.forall_mem_append] at hGap
    have hFront : ∀ d ∈ c :: skipped, isGapChar d = true := List.forall_mem_cons.2 ⟨hc, hGap.1⟩
    rw [hEq, afterGap hGap.2, ih, ← List.cons_append, afterGap hFront]

theorem hasComment_rewriting (h : IsRewriting T) (s : Text) :
    hasComment (T s) = hasComment s := by
  have hSlash : isCore ('/' : Char) = true := by decide
  have hStar : isCore ('*' : Char) = true := by decide
  have hMark : ∀ c ∈ [CodePoint.char '*', CodePoint.char '/'], isCore c = true := by
    simp [hSlash, hStar]
  have afterGap : ∀ {u : Text}, (∀ d ∈ u, isGapChar d = true) → ∀ t,
      hasComment (u ++ t) = hasComment t := by
    intro u hu t
    apply hasComment_append_left
    intro hMem
    have hNone := (isCore_iff.1 hSlash).1
    rw [hu _ hMem] at hNone
    contradiction
  induction s using h.induction with
  | nil => rw [h.nil]
  | keep c s hKeep ih =>
    rw [hKeep]
    by_cases hOpen : ∃ rest, c = '/' ∧ s = .char '*' :: rest
    · obtain ⟨rest, rfl, rfl⟩ := hOpen
      have hClosed := h.after?_rewriting hMark (List.cons_ne_nil _ _) rest
      rw [h.keep_core hStar] at ih ⊢
      rw [hasComment, hasComment, afterComment?, afterComment?, hClosed, Option.isSome_map, ih]
    · have hOpen' : ∀ rest, c = '/' → T s = .char '*' :: rest → False := by
        intro rest hc hEq
        have hLead : ∀ d ∈ [CodePoint.char '*'], isCore d = true := by simp [hStar]
        obtain ⟨more, hs, -⟩ := (h.eq_append_iff hLead).1 hEq
        exact hOpen ⟨more, hc, hs⟩
      rw [hasComment.eq_3 _ _ hOpen', ih, hasComment.eq_3]
      intro rest hc hs
      exact hOpen ⟨rest, hc, hs⟩
  | gap c skipped rest filler hc hEq hGap ih =>
    rw [List.forall_mem_append] at hGap
    have hFront : ∀ d ∈ c :: skipped, isGapChar d = true := List.forall_mem_cons.2 ⟨hc, hGap.1⟩
    rw [hEq, afterGap hGap.2, ih, ← List.cons_append, afterGap hFront]

end IsRewriting

/-! ## Collapsing -/

theorem isRewriting_collapse {f : CodePoint} (hf : isBlank f = true) :
    IsRewriting (collapse f) where
  nil := collapse_nil
  step := by
    intro c s
    cases hc : isBlank c with
    | false => exact Or.inl (collapse_cons_of_solid hc s)
    | true =>
      obtain ⟨w, hw, hs⟩ := exists_trimLeft s
      refine Or.inr ⟨isGapChar_iff.2 (Or.inl hc), w, trimLeft s, [f], hs, ?_, ?_, ?_⟩
      · exact collapse_cons_of_blank hc s
      · intro d hd
        rw [List.mem_append, List.mem_singleton] at hd
        rcases hd with hd | rfl
        · exact isGapChar_iff.2 (Or.inl (allBlank_iff.1 hw d hd))
        · exact isGapChar_iff.2 (Or.inl hf)
      · intro hEmpty
        cases hEmpty

end StyleScaffold.Css
