import StyleScaffold.Proofs.Css.BlockDeclarations
import StyleScaffold.Proofs.Css.RuleLayout

/-!
# What is read from a selector

A selector is known by the brace behind it, and only on the line of that brace. The lines above it
hold no brace, so they are read like the lines of a body.

* `found_selector`: what is read from a rule is what the lines above its brace declare, and then
  what is read from its braces alone.
* `not_declarations_selector`: a list of selectors that is broken behind a comma declares something.
* `declarations_selector_iff`: a selector makes no difference, whatever is in the braces behind it,
  exactly when none of these lines declares anything and the brace is in no comment.
-/

namespace StyleScaffold.Css

open Text

/-- The solid lines of a text above the one on which a brace behind the text would stand. -/
def linesAbove (s : Text) : List Text := (solidLines (s ++ [.char '{'])).dropLast

/-! ## Lines in front of a brace -/

theorem linesAbove_of_oneLine {s : Text} (h : OneLine s) : linesAbove s = [] := by
  have hSolid : allBlank (s ++ [.char '{']) = false := allBlank_append_solid (by decide) s []
  rw [linesAbove, solidLines_of_solid (h.append (by decide)) hSolid]
  rfl

theorem linesAbove_append_break {c : CodePoint} (hc : isLineBreak c = true) (a b : Text) :
    linesAbove (a ++ c :: b) = solidLines a ++ linesAbove b := by
  have hne : solidLines (b ++ [.char '{']) ≠ [] := by
    intro hNil
    have hCount := count_flatten_solidLines (c := .char '{') (by decide) (b ++ [.char '{'])
    rw [hNil] at hCount
    simp at hCount
  rw [linesAbove, List.append_assoc, List.cons_append, solidLines_append_break hc,
    List.dropLast_append_of_ne_nil hne, linesAbove]

/-- Only the last line of a text is on the line of the brace behind it. -/
theorem exists_solidLines_append_brace (s : Text) :
    ∃ last, OneLine last ∧ last ⊆ s ∧ ∀ t, solidLines (s ++ .char '{' :: t) =
      linesAbove s ++ solidLines (last ++ .char '{' :: t) := by
  induction s using lineInduction with
  | line s h =>
    refine ⟨s, h, List.Subset.refl s, fun t => ?_⟩
    rw [linesAbove_of_oneLine h, List.nil_append]
  | lineBreak a c b ha hc ih =>
    obtain ⟨last, hLast, hSubset, hLines⟩ := ih
    refine ⟨last, hLast, ?_, fun t => ?_⟩
    · intro d hd
      exact List.mem_append_right a (List.mem_cons_of_mem c (hSubset hd))
    · rw [List.append_assoc, List.cons_append, solidLines_append_break hc, hLines,
        linesAbove_append_break hc, List.append_assoc]

/-- In front of a brace, nothing is read from its line. -/
theorem flatMap_lineDeclarations_append_brace {u : Text} (hLine : OneLine u) (hBrace : NoBrace u)
    (t : Text) :
    (solidLines (u ++ .char '{' :: t)).flatMap lineDeclarations =
      (solidLines (.char '{' :: t)).flatMap lineDeclarations := by
  have onLine : ∀ s, OneLine s → (solidLines (u ++ .char '{' :: s)).flatMap lineDeclarations =
      (solidLines (.char '{' :: s)).flatMap lineDeclarations := by
    intro s hs
    have hFirst : OneLine (.char '{' :: s) := OneLine.append (s := [.char '{']) (by decide) hs
    have hSolid : ∀ v, allBlank (v ++ .char '{' :: s) = false :=
      fun v => allBlank_append_solid (by decide) v s
    have hRead := lineDeclarations_append_brace noBrace_nil s
    rw [List.nil_append] at hRead
    rw [solidLines_of_solid (hLine.append hFirst) (hSolid u),
      solidLines_of_solid hFirst (hSolid []), List.flatMap_singleton, List.flatMap_singleton,
      lineDeclarations_append_brace hBrace, hRead]
  induction t using lineInduction with
  | line s h => exact onLine s h
  | lineBreak a c b ha hc _ =>
    rw [← List.cons_append, ← List.append_assoc, solidLines_append_break hc,
      solidLines_append_break hc, List.flatMap_append, List.flatMap_append, onLine a ha]

theorem noBrace_of_mem_linesAbove {s line : Text} (hs : NoBrace s) (h : line ∈ linesAbove s) :
    NoBrace line := by
  induction s using lineInduction with
  | line s hLine =>
    rw [linesAbove_of_oneLine hLine] at h
    cases h
  | lineBreak a c b ha hc ih =>
    rw [linesAbove_append_break hc, List.mem_append, solidLines_of_oneLine ha] at h
    rcases h with h | h
    · split at h
      · cases h
      · rw [List.mem_singleton.1 h]
        exact fun d hd => hs d (List.mem_append_left _ hd)
    · exact ih (fun d hd => hs d (by simp [hd])) h

/-! ## Rules -/

/-- The lines above the brace of a rule are read like lines of its body, and the rest of its
selector is not read. -/
theorem found_selector {s : Text} (hBrace : NoBrace s) (hOpen : insideComment s = false)
    (body : Text) :
    found (s ++ braced body) =
      (linesAbove (withoutComments s)).filterMap declaration? ++ found (braced body) := by
  have hPlain : NoBrace (withoutComments s) :=
    fun c hc => hBrace c ((withoutComments_sublist s).subset hc)
  obtain ⟨last, hLast, hSubset, hLines⟩ := exists_solidLines_append_brace (withoutComments s)
  have hBody : withoutComments (braced body) = .char '{' :: withoutComments (body ++ [.char '}']) :=
    withoutComments_cons (by simp)
  have hAbove := flatMap_lineDeclarations_of_noBrace fun line hLine =>
    noBrace_of_mem_linesAbove hPlain hLine
  rw [found_eq, found_eq, withoutComments_append hOpen (by simp [braced]), hBody, hLines,
    List.flatMap_append, hAbove,
    flatMap_lineDeclarations_append_brace hLast fun c hc => hPlain c (hSubset hc)]

/-! ## Selectors that declare something -/

theorem declarations_eq_empty_iff {block : Text} :
    declarations block = .empty ↔ found block = [] := OrderedMap.ofList_eq_empty_iff

/-- A list of two selectors on two lines. -/
def linkStates : Text := "a:hover,\na:focus "

/-- The first line of the list is read as a declaration. -/
theorem not_declarations_selector :
    ¬ ∀ s body : Text, NoBrace s → holds "/*" s = false →
      declarations (s ++ braced body) = declarations (braced body) := by
  intro h
  have hSelector := h linkStates [] (by decide) (by decide)
  have hEmpty : declarations (braced []) = .empty := declarations_eq_empty_iff.2 (by decide +kernel)
  rw [hEmpty, declarations_eq_empty_iff] at hSelector
  exact absurd hSelector (by decide +kernel)

/-- In a body, all of which is in a comment, a slash behind the opening closes no comment. Where the
selector has opened one, it does, and a line behind it is read. -/
def oddComment : Text := "/*/\np:v;/**/"

theorem declarations_selector_inside {s : Text} (h : insideComment s = true) :
    declarations (s ++ braced oddComment) ≠ declarations (braced oddComment) := by
  obtain ⟨front, hFront⟩ := exists_withoutComments_of_insideComment h
  have hRest : withoutComments "\np:v;/**/\x7d" = .char '\n' :: ("p:v;\x7d" : Text) := by
    decide +kernel
  have hText : withoutComments (s ++ braced oddComment) =
      front ++ .char '\n' :: ("p:v;\x7d" : Text) := by
    rw [← hRest]
    exact hFront "\x7b/" _ (by decide) (by decide) (by decide)
  have hLine : (solidLines "p:v;\x7d").flatMap lineDeclarations =
      [(("p" : Text), ("v" : Text))] := by decide +kernel
  have hEmpty : declarations (braced oddComment) = .empty :=
    declarations_eq_empty_iff.2 (by decide +kernel)
  rw [hEmpty, ne_eq, declarations_eq_empty_iff, found_eq, hText,
    solidLines_append_break isLineBreak_lineFeed, List.flatMap_append, hLine]
  simp

/-- What is read from a rule is what is read from its braces, with the declarations in front that
the lines of its selector above the brace hold. So a selector is not read, whatever the body is,
exactly when none of these lines holds one and the selector does not end inside a comment. -/
theorem declarations_selector_iff {s : Text} (hBrace : NoBrace s) :
    (insideComment s = false → ∀ body, declarations (s ++ braced body) =
        .ofList ((linesAbove (withoutComments s)).filterMap declaration? ++ found (braced body))) ∧
      ((∀ body, declarations (s ++ braced body) = declarations (braced body)) ↔
        insideComment s = false ∧
          ∀ line ∈ linesAbove (withoutComments s), declaration? line = none) := by
  have hRead : insideComment s = false → ∀ body, declarations (s ++ braced body) =
      .ofList ((linesAbove (withoutComments s)).filterMap declaration? ++ found (braced body)) :=
    fun hOpen body => congrArg OrderedMap.ofList (found_selector hBrace hOpen body)
  refine ⟨hRead, ?_⟩
  constructor
  · intro h
    have hOpen : insideComment s = false := by
      rw [Bool.eq_false_iff]
      exact fun hInside => declarations_selector_inside hInside (h oddComment)
    have hNone : found (braced []) = [] := by decide +kernel
    have hEmpty := (h []).symm.trans (hRead hOpen [])
    rw [declarations_eq_empty_iff.2 hNone, hNone, List.append_nil, eq_comm,
      OrderedMap.ofList_eq_empty_iff, List.filterMap_eq_nil_iff] at hEmpty
    exact ⟨hOpen, hEmpty⟩
  · rintro ⟨hOpen, hLines⟩ body
    rw [hRead hOpen, List.filterMap_eq_nil_iff.2 hLines]
    rfl

/-- A list of selectors over three lines, of which the line above the brace has a colon. -/
theorem declarations_selector_iff_list :
    NoBrace "ul,\nol,\nli:hover " ∧
      ∀ body, declarations ("ul,\nol,\nli:hover " ++ braced body) = declarations (braced body) := by
  have hBrace : NoBrace "ul,\nol,\nli:hover " := by decide
  exact ⟨hBrace, (declarations_selector_iff hBrace).2.2 ⟨by decide +kernel, by decide +kernel⟩⟩

end StyleScaffold.Css
