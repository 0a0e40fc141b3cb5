import StyleScaffold.Proofs.Css.SingleBlock

/-!
# Blocks of rules, whatever their layout

A rule is a selector with one group of properly nested braces behind it. Rules may stand on lines
of their own, or share a line, or have their selectors broken into lines. Since the scan stops at
ends of lines only, a rule and what stands behind it on its last line go into one block.

* `Nested.balance_nonneg`: inside of nested braces the balance is never negative, so inside of a
  rule it is positive (`isOneBlock_rule`).
* `blocks_runs` (no assumption on the layout): the blocks of a sequence of rules are its `runs`.
* `not_blocks_layout`: it is false that rules always give one block each.
* `blocks_layout_iff`: they do exactly when each rule but the first one starts a line.
-/

namespace StyleScaffold.Css

open Text

/-- Braces that are opened are closed again, one inside of the other. -/
inductive Nested : Text → Prop where
  | nil : Nested []
  | char {c : CodePoint} {s : Text} (noBrace : isBrace c = false) (rest : Nested s) :
      Nested (c :: s)
  | group {s t : Text} (inner : Nested s) (rest : Nested t) :
      Nested (.char '{' :: (s ++ .char '}' :: t))

/-- The text in braces. -/
def braced (body : Text) : Text := .char '{' :: (body ++ [.char '}'])

/-- A selector and what is in the braces behind it. -/
structure StyleRule where
  selector : Text
  body : Text
  noBrace : NoBrace selector
  solid : allBlank selector = false
  nested : Nested body

/-- The text of the rule. -/
def StyleRule.text (r : StyleRule) : Text := r.selector ++ braced r.body

/-- A rule behind some blanks. -/
structure PlacedRule where
  gap : Text
  rule : StyleRule
  blank : allBlank gap = true

namespace PlacedRule

/-- What stands in front of the braces. -/
def lead (p : PlacedRule) : Text := p.gap ++ p.rule.selector

/-- Whether a line is broken among the blanks in front of the rule's first solid character. -/
def startsLine (p : PlacedRule) : Bool := (p.lead.takeWhile isBlank).any isLineBreak

end PlacedRule

/-- The text of rules with their blanks. -/
def layout (rs : List PlacedRule) : Text := rs.flatMap fun p => p.gap ++ p.rule.text

/-- The two sides of the first line break. -/
def firstBreak? (s : Text) : Option (Text × Text) :=
  match s.dropWhile (! isLineBreak ·) with
  | [] => none
  | _ :: rest => some (s.takeWhile (! isLineBreak ·), rest)

/-- The runs of text in which rules continue the run that has been begun. A run ends at the first
line break in front of the braces of a rule, and the next one begins behind that. -/
def runs (begun : Text) : List PlacedRule → List Text
  | [] => [begun]
  | p :: rs =>
    match firstBreak? p.lead with
    | none => runs (begun ++ p.lead ++ braced p.rule.body) rs
    | some (front, back) => (begun ++ front) :: runs (back ++ braced p.rule.body) rs

/-! ## The balance inside of nested braces -/

theorem braceBalance_opening (s : Text) : braceBalance (.char '{' :: s) = 1 + braceBalance s := by
  rw [← List.singleton_append, braceBalance_append]
  rfl

theorem braceBalance_closing (s : Text) : braceBalance (.char '}' :: s) = braceBalance s - 1 := by
  rw [← List.singleton_append, braceBalance_append, show braceBalance [.char '}'] = -1 from rfl]
  omega

theorem braceBalance_cons {c : CodePoint} (hc : isBrace c = false) (s : Text) :
    braceBalance (c :: s) = braceBalance s := by
  have hOne : NoBrace [c] := noBrace_cons.2 ⟨hc, noBrace_nil⟩
  rw [← List.singleton_append, braceBalance_append, braceBalance_of_noBrace hOne, Int.zero_add]

theorem Nested.balance_eq_zero {s : Text} (h : Nested s) : braceBalance s = 0 := by
  induction h with
  | nil => rfl
  | char noBrace _ ih => rw [braceBalance_cons noBrace, ih]
  | group _ _ ihInner ihRest =>
    rw [braceBalance_opening, braceBalance_append, braceBalance_closing, ihInner, ihRest]
    rfl

/-- What is closed in front of a place inside of nested braces was opened in front of it. -/
theorem Nested.balance_nonneg {s : Text} (h : Nested s) {p : Text} (hp : p <+: s) :
    0 ≤ braceBalance p := by
  induction h generalizing p with
  | nil =>
    rw [List.prefix_nil.1 hp]
    decide
  | char noBrace _ ih =>
    rcases List.prefix_cons_iff.1 hp with rfl | ⟨q, rfl, hq⟩
    · decide
    · rw [braceBalance_cons noBrace]
      exact ih hq
  | @group s t inner _ ihInner ihRest =>
    rcases List.prefix_cons_iff.1 hp with rfl | ⟨q, rfl, hq⟩
    · decide
    rw [braceBalance_opening]
    rcases List.prefix_or_prefix_of_prefix hq (List.prefix_append s _) with hInner | ⟨q', rfl⟩
    · have := ihInner hInner
      omega
    rw [List.prefix_append_right_inj] at hq
    rw [braceBalance_append, inner.balance_eq_zero]
    rcases List.prefix_cons_iff.1 hq with rfl | ⟨r, rfl, hr⟩
    · decide
    · have := ihRest hr
      rw [braceBalance_closing]
      omega

theorem nested_of_noBrace {s : Text} (h : NoBrace s) : Nested s := by
  induction s with
  | nil => exact .nil
  | cons c s ih =>
    exact .char (h c List.mem_cons_self) (ih fun d hd => h d (List.mem_cons_of_mem c hd))

/-! ## Groups -/

theorem balance_braced {body : Text} (h : Nested body) : braceBalance (braced body) = 0 := by
  rw [braced, braceBalance_opening, braceBalance_append, braceBalance_closing, h.balance_eq_zero]
  rfl

/-- Where a line in a group is broken, the group is still open. -/
theorem balance_pos_of_braced {body a b : Text} {c : CodePoint} (h : Nested body)
    (hEq : braced body = a ++ c :: b) (hc : isLineBreak c = true) (hne : a ≠ []) :
    0 < braceBalance a := by
  obtain ⟨d, t, rfl⟩ := List.exists_cons_of_ne_nil hne
  rw [braced, List.cons_append, List.cons.injEq] at hEq
  obtain ⟨rfl, hEq⟩ := hEq
  rw [braceBalance_opening]
  rcases append_eq_append_cons hEq with ⟨u, hBody, -⟩ | ⟨u, rfl, hLast⟩
  · have := h.balance_nonneg ⟨c :: u, hBody.symm⟩
    omega
  · cases u with
    | nil =>
      rw [List.nil_append, List.cons.injEq] at hLast
      obtain ⟨rfl, -⟩ := hLast
      exact absurd hc (by decide)
    | cons d u => simp at hLast

/-- A group is closed where its last brace is, whatever stands in front of it, if that does not
end earlier itself. -/
theorem isOneBlock_append_braced {s body : Text} (hEarlier : NoEarlierEnd s)
    (hZero : braceBalance s = 0) (hBody : Nested body) : IsOneBlock (s ++ braced body) where
  opens := by simp [braced]
  closes := by rw [braceBalance_append, hZero, balance_braced hBody, Int.add_zero]
  noEarlier := by
    intro a c b hEq hc hOpen
    rcases append_eq_append_cons hEq with ⟨t, hs, -⟩ | ⟨t, rfl, hGroup⟩
    · exact hEarlier a c t hs hc hOpen
    · by_cases hNil : t = []
      · subst hNil
        rw [List.nil_append, braced, List.cons.injEq] at hGroup
        rw [← hGroup.1] at hc
        exact absurd hc (by decide)
      · have := balance_pos_of_braced hBody hGroup hc hNil
        rw [braceBalance_append, hZero]
        omega

/-- A rule ends at its last brace and no line in it ends it earlier. -/
theorem isOneBlock_rule {w body : Text} (hw : NoBrace w) (hBody : Nested body) :
    IsOneBlock (w ++ braced body) :=
  isOneBlock_append_braced (noEarlierEnd_of_noBrace hw) (braceBalance_of_noBrace hw) hBody

/-! ## Leads -/

theorem oneLine_takeWhile (s : Text) : OneLine (s.takeWhile (! isLineBreak ·)) := by
  intro c hc
  have hAll := List.all_eq_true.1 (List.all_takeWhile (p := (! isLineBreak ·)) (l := s)) c hc
  simpa using hAll

theorem oneLine_of_firstBreak? {s : Text} (h : firstBreak? s = none) : OneLine s := by
  unfold firstBreak? at h
  split at h
  · rename_i hDrop
    have hAppend := List.takeWhile_append_dropWhile (p := (! isLineBreak ·)) (l := s)
    rw [hDrop, List.append_nil] at hAppend
    rw [← hAppend]
    exact oneLine_takeWhile s
  · cases h

theorem firstBreak?_eq_some {s front back : Text} (h : firstBreak? s = some (front, back)) :
    ∃ c, s = front ++ c :: back ∧ isLineBreak c = true ∧ OneLine front := by
  unfold firstBreak? at h
  split at h
  · cases h
  · rename_i c rest hDrop
    rw [Option.some.injEq, Prod.mk.injEq] at h
    obtain ⟨rfl, rfl⟩ := h
    refine ⟨c, ?_, ?_, oneLine_takeWhile s⟩
    · rw [← hDrop, List.takeWhile_append_dropWhile]
    · have hHead := List.head?_dropWhile_not (! isLineBreak ·) s
      rw [hDrop] at hHead
      simpa using hHead

theorem PlacedRule.noBrace_lead (p : PlacedRule) : NoBrace p.lead :=
  (noBrace_of_allBlank p.blank).append p.rule.noBrace

/-- The blanks in front of a rule are no part of its block. -/
theorem PlacedRule.blockText_lead (p : PlacedRule) :
    blockText (p.lead ++ braced p.rule.body) = blockText p.rule.text := by
  rw [lead, List.append_assoc, blockText_append_left p.blank, StyleRule.text]

theorem layout_cons (p : PlacedRule) (rs : List PlacedRule) :
    layout (p :: rs) = p.lead ++ braced p.rule.body ++ layout rs := by
  simp [layout, PlacedRule.lead, StyleRule.text]

theorem PlacedRule.startsLine_of_oneLine {p : PlacedRule} (h : OneLine p.lead) :
    p.startsLine = false := by
  rw [startsLine, List.any_eq_false]
  intro c hc
  rw [h c ((List.takeWhile_prefix _).subset hc)]
  exact Bool.false_ne_true

/-- A rule starts a line when only blanks stand in front of the first line break of its lead. -/
theorem PlacedRule.startsLine_eq {p : PlacedRule} {a b : Text} {c : CodePoint} (ha : OneLine a)
    (hc : isLineBreak c = true) (h : p.lead = a ++ c :: b) : p.startsLine = allBlank a := by
  rw [startsLine, h]
  by_cases hBlank : allBlank a = true
  · rw [List.takeWhile_append_of_pos (allBlank_iff.1 hBlank), hBlank, List.takeWhile_cons,
      if_pos (isBlank_of_isLineBreak hc), List.any_append, List.any_cons, hc, Bool.true_or,
      Bool.or_true]
  · have hShort : (a.takeWhile isBlank).length ≠ a.length := by
      intro hLength
      have hAll := (List.takeWhile_prefix isBlank (l := a)).eq_of_length hLength
      exact hBlank (by rw [← hAll]; exact List.all_takeWhile)
    rw [List.takeWhile_append, if_neg hShort, Bool.eq_false_iff.2 hBlank, List.any_eq_false]
    intro d hd
    rw [ha d ((List.takeWhile_prefix _).subset hd)]
    exact Bool.false_ne_true

/-! ## Runs -/

/-- The blocks of rules behind a run that has been begun are the runs. -/
theorem blocks_runs {trail : Text} (hTrail : allBlank trail = true) (rs : List PlacedRule)
    {begun : Text} (h : IsOneBlock begun) :
    blocks (begun ++ (layout rs ++ trail)) = (runs begun rs).map blockText := by
  induction rs generalizing begun with
  | nil => exact blocks_append_blank h hTrail
  | cons p rs ih =>
    have hLead := p.noBrace_lead
    rw [layout_cons]
    unfold runs
    split
    · rename_i hBreak
      have hLine := h.append_oneLine (oneLine_of_firstBreak? hBreak) hLead
      have hRun := isOneBlock_append_braced hLine.noEarlier hLine.closes p.rule.nested
      rw [← ih hRun]
      simp only [List.append_assoc]
    · rename_i front back hBreak
      obtain ⟨c, hEq, hc, hFront⟩ := firstBreak?_eq_some hBreak
      rw [hEq] at hLead ⊢
      have hEnd := h.append_oneLine hFront fun d hd => hLead d (List.mem_append_left _ hd)
      have hNext := isOneBlock_rule (w := back)
        (fun d hd => hLead d (List.mem_append_right _ (List.mem_cons_of_mem c hd))) p.rule.nested
      rw [List.map_cons, ← ih hNext, ← blocks_append_break hEnd hc]
      simp only [List.append_assoc, List.cons_append]

theorem length_runs_le (begun : Text) (rs : List PlacedRule) :
    (runs begun rs).length ≤ rs.length + 1 := by
  induction rs generalizing begun with
  | nil => simp [runs]
  | cons p rs ih =>
    unfold runs
    split
    · have := ih (begun ++ p.lead ++ braced p.rule.body)
      rw [List.length_cons]
      omega
    · rename_i front back _
      have := ih (back ++ braced p.rule.body)
      rw [List.length_cons, List.length_cons]
      omega

/-- The run that has been begun and the rules are the blocks exactly when no rule goes on in the
run of the one before it. -/
theorem map_runs_eq_iff (begun : Text) (rs : List PlacedRule) :
    (runs begun rs).map blockText = blockText begun :: rs.map (fun p => blockText p.rule.text) ↔
      ∀ p ∈ rs, p.startsLine = true := by
  induction rs generalizing begun with
  | nil => simp [runs]
  | cons p rs ih =>
    rw [List.forall_mem_cons]
    unfold runs
    split
    · rename_i hBreak
      rw [p.startsLine_of_oneLine (oneLine_of_firstBreak? hBreak)]
      -- the rule goes on in the run, and then there are too few runs
      constructor
      · intro hEq
        have hLength := congrArg List.length hEq
        have hLe := length_runs_le (begun ++ p.lead ++ braced p.rule.body) rs
        simp only [List.length_map, List.length_cons] at hLength
        omega
      · rintro ⟨hFalse, -⟩
        cases hFalse
    · rename_i front back hBreak
      obtain ⟨c, hEq, hc, hFront⟩ := firstBreak?_eq_some hBreak
      rw [p.startsLine_eq hFront hc hEq, List.map_cons, List.map_cons, List.cons.injEq]
      -- what is in front of the break goes to the run before, so it has to be blank
      by_cases hBlank : allBlank front = true
      · have hCut : allBlank (front ++ [c]) = true := by
          rw [allBlank_append, hBlank, allBlank_cons, isBlank_of_isLineBreak hc]
          rfl
        have hBack : blockText (back ++ braced p.rule.body) = blockText p.rule.text := by
          rw [← p.blockText_lead, hEq, ← blockText_append_left hCut]
          simp only [List.append_assoc, List.cons_append, List.nil_append]
        rw [blockText_append_right hBlank, ← hBack, ih]
        exact and_congr_left fun _ => iff_of_true rfl hBlank
      · have hOther := blockText_append_solid (Bool.eq_false_iff.2 hBlank) begun
        constructor
        · rintro ⟨hSame, -⟩
          exact absurd hSame hOther
        · rintro ⟨hTrue, -⟩
          exact absurd hTrue hBlank

/-! ## One block for each rule -/

/-- The rules `a{}` and `b{}` with blanks between them. -/
def twoRules (gap : Text) (blank : allBlank gap = true) : List PlacedRule :=
  [⟨[], ⟨"a", [], by decide, by decide, .nil⟩, rfl⟩,
   ⟨gap, ⟨"b", [], by decide, by decide, .nil⟩, blank⟩]

/-- With a space between them, two rules give one block, although neither holds a comment. -/
theorem not_blocks_layout :
    ¬ ∀ rs : List PlacedRule, (∀ p ∈ rs, hasComment p.rule.text = false) →
      blocks (layout rs) = rs.map fun p => blockText p.rule.text := by
  intro h
  have hEq := h (twoRules " " rfl) (by decide)
  have hFirst : IsOneBlock ("a" ++ braced []) := isOneBlock_rule (by decide) .nil
  have hTrail : allBlank ([] : Text) = true := rfl
  have hRuns := blocks_runs hTrail (twoRules " " rfl).tail hFirst
  have hStarts := (map_runs_eq_iff ("a" ++ braced []) _).1 (hRuns.symm.trans hEq)
  exact absurd hStarts (by decide)

/-- The blocks of rules are the rules, one by one and but for blank lines and blanks around them,
exactly when every rule but the first one begins on a line behind the end of the one before. -/
theorem blocks_layout_iff (rs : List PlacedRule) (trail : Text) (hTrail : allBlank trail = true) :
    blocks (layout rs ++ trail) = rs.map (fun p => blockText p.rule.text) ↔
      ∀ p ∈ rs.tail, p.startsLine = true := by
  cases rs with
  | nil => simpa [layout] using blocks_of_allBlank hTrail
  | cons p rs =>
    have hFirst := isOneBlock_rule p.noBrace_lead p.rule.nested
    rw [layout_cons, List.append_assoc, blocks_runs hTrail rs hFirst, List.map_cons,
      ← p.blockText_lead, map_runs_eq_iff, List.tail_cons]

/-- With a line break between them, two rules give two blocks. -/
theorem blocks_layout_iff_lineBreak :
    allBlank "\n" = true ∧
      blocks (layout (twoRules "\r\n " rfl) ++ "\n") =
        (twoRules "\r\n " rfl).map fun p => blockText p.rule.text :=
  ⟨by decide, (blocks_layout_iff (twoRules "\r\n " rfl) "\n" (by decide)).2 (by decide)⟩

end StyleScaffold.Css
