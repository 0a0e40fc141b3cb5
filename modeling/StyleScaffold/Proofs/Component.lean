import StyleScaffold.Component.Basic
import StyleScaffold.Proofs.Css.ComponentName
import StyleScaffold.Proofs.Css.DeclarationRoundTrip
import StyleScaffold.Proofs.Css.RuleLayout
import StyleScaffold.Proofs.Text.LowerCase

/-!
# The rule of a component

The rule that holds a component's declarations is a stylesheet itself. For a component as it comes
out of a stylesheet (`IsPlain`):

* `blocks_declarationsRule`: the rule is one block, and unchanged as that.
* `declarations_declarationsRule`: unless a comment is in the rule, the declarations are read from
  it again.
* `componentName_declarationsRule`: and its name is the name in lower case, if that begins with a
  letter.
-/

namespace StyleScaffold.Component

open Text Css

/-- The name consists of letters and digits, and the declarations can be read from a line. -/
structure IsPlain (c : Component) : Prop where
  name_alnum : ∀ x ∈ c.name, isAsciiAlnum x = true
  declarations : ∀ d ∈ c.declarations.entries, IsDeclaration d

/-- The selector of the component's rule. -/
def selector (c : Component) : Text := .char '.' :: lower c.name

/-- The lines of the component's rule. -/
def ruleLines (c : Component) : List Text :=
  (c.selector ++ [.char ' ', .char '{']) ::
    (c.declarations.entries.map (declarationLine "  ") ++ [[.char '}']])

/-! ## The selector -/

theorem IsPlain.plain_selector {c : Component} (h : c.IsPlain) : Plain c.selector := by
  have hName : Plain (lower c.name) := by
    intro x hx
    exact isPlainChar_iff.2 (Or.inl (isAsciiAlnum_of_mem_lower h.name_alnum x hx))
  exact Plain.cons (by decide) hName

theorem IsPlain.noBrace_selector {c : Component} (h : c.IsPlain) : NoBrace c.selector :=
  fun x hx => isBrace_of_isPlainChar (h.plain_selector x hx)

theorem IsPlain.oneLine_selector {c : Component} (h : c.IsPlain) : OneLine c.selector :=
  fun x hx => isLineBreak_of_isPlainChar (h.plain_selector x hx)

/-! ## The lines of the rule -/

/-- With or without declarations, the rule is its lines. -/
theorem declarationsRule_eq_join (c : Component) :
    c.declarationsRule = join [.char '\n'] c.ruleLines := by
  have hSelector : ("." ++ lower c.name : Text) = c.selector := rfl
  unfold declarationsRule ruleLines
  dsimp only
  rw [hSelector]
  by_cases hEmpty : c.declarations.entries = []
  · rw [hEmpty]
    simp [join_cons_cons, ofString]
  · have hLines : c.declarations.entries.map (declarationLine "  ") ≠ [] := by simpa using hEmpty
    rw [if_neg (by simpa using hEmpty), join_cons (by simp), join_concat hLines, ruleText_eq,
      declarationsText]
    simp only [List.append_assoc, List.cons_append, List.nil_append]

theorem IsPlain.oneLine_ruleLines {c : Component} (h : c.IsPlain) :
    ∀ line ∈ c.ruleLines, OneLine line ∧ allBlank line = false := by
  have hBrace : OneLine [.char ' ', .char '{'] := by decide
  have hIndent : OneLine ("  " : Text) := by decide
  intro line hLine
  rcases List.mem_cons.1 hLine with rfl | hLine
  · refine ⟨h.oneLine_selector.append hBrace, ?_⟩
    rw [allBlank_append, show allBlank [.char ' ', .char '{'] = false from by decide, Bool.and_false]
  rcases List.mem_append.1 hLine with hDeclaration | hLast
  · obtain ⟨d, hd, rfl⟩ := List.mem_map.1 hDeclaration
    refine ⟨?_, allBlank_declarationLine _ d⟩
    have hWritten := hIndent.append (oneLine_declarationLine (h.declarations d hd))
    simpa [declarationLine_eq] using hWritten
  · rw [List.mem_singleton.1 hLast]
    exact ⟨by decide, by decide⟩

theorem IsPlain.solidLines_declarationsRule {c : Component} (h : c.IsPlain) :
    solidLines c.declarationsRule = c.ruleLines := by
  rw [declarationsRule_eq_join, solidLines_join_eq_self h.oneLine_ruleLines]

theorem IsPlain.solidLines_declarationsText {c : Component} (h : c.IsPlain) :
    solidLines (declarationsText "  " c.declarations) =
      c.declarations.entries.map (declarationLine "  ") := by
  refine solidLines_join_eq_self ?_
  intro line hLine
  exact h.oneLine_ruleLines line (List.mem_cons_of_mem _ (List.mem_append_left _ hLine))

/-! ## The block of the rule -/

/-- Behind the selector there is one group, without braces in it. -/
theorem IsPlain.exists_braced {c : Component} (h : c.IsPlain) :
    ∃ body, (NoBrace body) ∧
      c.declarationsRule = c.selector ++ [.char ' '] ++ braced body := by
  have hBreak : NoBrace [CodePoint.char '\n'] := by decide
  rw [declarationsRule_eq_join, ruleLines, join_cons (by simp)]
  by_cases hEmpty : c.declarations.entries = []
  · refine ⟨[.char '\n'], hBreak, ?_⟩
    rw [hEmpty]
    simp [braced]
  · have hLines : c.declarations.entries.map (declarationLine "  ") ≠ [] := by simpa using hEmpty
    refine ⟨.char '\n' :: (declarationsText "  " c.declarations ++ [.char '\n']), ?_, ?_⟩
    · have hBody : NoBrace (declarationsText "  " c.declarations) :=
        noBrace_declarationsText (by decide) h.declarations
      exact hBreak.append (hBody.append hBreak)
    · rw [join_concat hLines, declarationsText, braced]
      simp only [List.append_assoc, List.cons_append, List.nil_append]

theorem IsPlain.trimmed_declarationsRule {c : Component} (h : c.IsPlain) :
    Trimmed c.declarationsRule := by
  obtain ⟨body, -, hRule⟩ := h.exists_braced
  refine ⟨?_, ?_⟩
  · intro x hx
    obtain rfl : .char '.' = x := by simpa [hRule, selector] using hx
    decide
  · intro x hx
    have hLast : c.declarationsRule =
        (c.selector ++ [.char ' '] ++ .char '{' :: body) ++ [.char '}'] := by
      rw [hRule, braced]
      simp
    rw [hLast, List.getLast?_concat, Option.mem_some_iff] at hx
    rw [← hx]
    decide

theorem IsPlain.blocks_declarationsRule {c : Component} (h : c.IsPlain) :
    blocks c.declarationsRule = [c.declarationsRule] := by
  have hBlock : IsOneBlock c.declarationsRule := by
    obtain ⟨body, hBody, hRule⟩ := h.exists_braced
    rw [hRule]
    exact isOneBlock_rule (h.noBrace_selector.append (by decide)) (nested_of_noBrace hBody)
  have hTrimmed := h.trimmed_declarationsRule
  rw [blocks_of_isOneBlock hBlock]
  rw [declarationsRule_eq_join] at hTrimmed ⊢
  rw [blockText_join h.oneLine_ruleLines hTrimmed]

/-! ## What is read from the rule -/

theorem IsPlain.declarations_declarationsRule {c : Component} (h : c.IsPlain)
    (hComment : hasComment c.declarationsRule = false) :
    Css.declarations c.declarationsRule = c.declarations := by
  refine declarations_of_solidLines h.noBrace_selector ?_ hComment h.solidLines_declarationsRule
  rw [← h.solidLines_declarationsText]
  exact flatMap_lineDeclarations_declarationsText (by decide) h.declarations

/-- The name that is read from the rule is in lower case as it stands there. -/
theorem IsPlain.componentName_declarationsRule {c : Component} (h : c.IsPlain)
    (hComment : hasComment c.declarationsRule = false) {x : CodePoint} {rest : Text}
    (hName : c.name = x :: rest) (hLetter : isAsciiLetter x = true) (default : Text) :
    componentName default c.declarationsRule = lower c.name := by
  have hLower := isAsciiAlnum_of_mem_lower h.name_alnum
  obtain ⟨body, -, hRule⟩ := h.exists_braced
  obtain ⟨y, more, hMore, hy⟩ : ∃ y more, lower c.name = y :: more ∧ isAsciiLetter y = true := by
    rw [lower_eq_map fun d hd => isAscii_of_isAsciiAlnum (h.name_alnum d hd), hName]
    exact ⟨asciiLower x, rest.map asciiLower, rfl, isAsciiLetter_asciiLower hLetter⟩
  have hStart : c.declarationsRule = .char '.' :: (y :: more ++ .char ' ' :: braced body) := by
    rw [hRule, selector, hMore]
    simp
  rw [hMore] at hLower ⊢
  rw [hStart] at hComment ⊢
  exact componentName_classRule default hy hLower hComment

end StyleScaffold.Component
