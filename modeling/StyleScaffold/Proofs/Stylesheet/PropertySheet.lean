import StyleScaffold.Proofs.Css.BlockComposition
import StyleScaffold.Proofs.Css.CustomProperty
import StyleScaffold.Proofs.Stylesheet.MinifiedRule

/-!
# Custom properties of written rules

A rule is written with its declarations on lines of their own. Its block has the custom properties
that are declared there. The scan of the text finds them as well, but it also finds what is marked
like a custom property in the selector or in the value of another property, and it finds no property
that has no name behind the dashes.

* `PropertyRule.findings_text`: what is found in a rule.
* `declaredProperties_sheetText`: what the blocks declare.
* `customProperties_sheetText`: where the two agree.
-/

namespace StyleScaffold.Css

open Text

section Lists

variable {α β : Type} {f g : α → List β} {as : List α}

theorem length_flatMap_le (h : ∀ a ∈ as, (f a).length ≤ (g a).length) :
    (as.flatMap f).length ≤ (as.flatMap g).length := by
  induction as with
  | nil => exact Nat.le_refl 0
  | cons a as ih =>
    rw [List.forall_mem_cons] at h
    rw [List.flatMap_cons, List.flatMap_cons, List.length_append, List.length_append]
    exact Nat.add_le_add h.1 (ih h.2)

/-- Where no part is longer than the other, equal wholes have equal parts. -/
theorem eq_of_flatMap_eq (hLe : ∀ a ∈ as, (f a).length ≤ (g a).length)
    (h : as.flatMap f = as.flatMap g) : ∀ a ∈ as, f a = g a := by
  induction as with
  | nil => simp
  | cons a as ih =>
    rw [List.forall_mem_cons] at hLe ⊢
    rw [List.flatMap_cons, List.flatMap_cons] at h
    have hLength := congrArg List.length h
    have hRest := length_flatMap_le hLe.2
    rw [List.length_append, List.length_append] at hLength
    obtain ⟨hHead, hTail⟩ := List.append_inj h (by omega)
    exact ⟨hHead, ih hLe.2 hTail⟩

end Lists

/-- A declaration of a custom property, or of a property without double dashes. -/
structure PropertyLine where
  property : Text
  value : Text
  isNameChar_property : ∀ c ∈ property, isNameChar c = true
  dashes : startsWith "--" property = true ∨ holds "--" property = false
  value_ne_nil : value ≠ []
  value_trimmed : Trimmed value
  value_noBrace : NoBrace value
  value_noSemicolon : .char ';' ∉ value
  value_oneLine : OneLine value

/-- The custom property that is declared, if it is one. -/
def declared? : Text × Text → Option (Text × Text) := rekey (strip? "--")

namespace PropertyLine

def pair (l : PropertyLine) : Text × Text := (l.property, l.value)

/-- What the scan finds in the line. -/
def found (l : PropertyLine) : List (Text × Text) :=
  match strip? "--" l.property with
  | some (c :: name) => [(c :: name, l.value)]
  | _ => findings l.value

/-- The line declares a custom property that has a name, or its value is not marked. -/
def IsClear (l : PropertyLine) : Prop :=
  l.property ≠ "--" ∧ (holds "--" l.property = false → ¬ IsMarked l.value)

theorem isValueChar_value (l : PropertyLine) : ∀ c ∈ l.value, isValueChar c = true := by
  intro c hc
  rw [isValueChar, Bool.and_eq_true, decide_eq_true_eq, decide_eq_true_eq]
  constructor
  · rintro rfl
    exact l.value_noSemicolon hc
  · rintro rfl
    exact absurd (l.value_noBrace _ hc) (by decide)

/-- A line declares a custom property, or dashes without a name, or another property. -/
theorem kinds (l : PropertyLine) :
    (∃ name, name ≠ [] ∧ l.property = ofString "--" ++ name ∧ holds "--" l.property = true ∧
      l.found = [(name, l.value)] ∧ declared? l.pair = some (name, l.value)) ∨
    (l.property = "--" ∧ declared? l.pair = some ([], l.value) ∧ l.found = findings l.value) ∨
    (holds "--" l.property = false ∧ declared? l.pair = none ∧ l.found = findings l.value) := by
  have hHolds : ∀ t, holds "--" (ofString "--" ++ t) = true := fun t => rfl
  unfold found declared? pair rekey
  rcases l.dashes with hDashes | hNone
  · obtain ⟨name, hName⟩ := Option.isSome_iff_exists.1 hDashes
    rw [hName]
    rw [strip?_eq_some_iff] at hName
    rw [hName]
    cases name with
    | nil => exact Or.inr (Or.inl ⟨rfl, rfl, rfl⟩)
    | cons c name => exact Or.inl ⟨c :: name, by simp, rfl, hHolds _, rfl, rfl⟩
  · have hStrip : strip? "--" l.property = none := by
      cases h : strip? "--" l.property with
      | none => rfl
      | some name =>
        rw [strip?_eq_some_iff.1 h, hHolds] at hNone
        contradiction
    rw [hStrip]
    exact Or.inr (Or.inr ⟨hNone, rfl, rfl⟩)

theorem findings_append (l : PropertyLine) (t : Text) :
    findings (declarationLine [] l.pair ++ t) = l.found ++ findings t := by
  have hLine : declarationLine [] l.pair ++ t =
      (l.property ++ .char ':' :: .char ' ' :: l.value) ++ .char ';' :: t := by
    simp [declarationLine, pair, ofString]
  rw [hLine, findings_append_end (by decide)]
  congr 1
  rcases l.kinds with ⟨name, hne, hProperty, -, hFound, -⟩ | ⟨hProperty, -, hFound⟩ |
    ⟨hProperty, -, hFound⟩
  · have hName : ∀ c ∈ name, isNameChar c = true := fun c hc =>
      l.isNameChar_property c (by rw [hProperty]; exact List.mem_append_right _ hc)
    rw [hFound, hProperty, findings_declared hne hName l.isValueChar_value l.value_trimmed]
  · rw [hFound, findings_undeclared (Or.inl hProperty)]
  · rw [hFound, findings_undeclared (Or.inr hProperty)]

/-- A clear line is found as it is declared. -/
theorem IsClear.found_eq {l : PropertyLine} (h : l.IsClear) : l.found = (declared? l.pair).toList := by
  rcases l.kinds with ⟨name, -, -, -, hFound, hDeclared⟩ | ⟨hProperty, -, -⟩ |
    ⟨hProperty, hDeclared, hFound⟩
  · rw [hFound, hDeclared, Option.toList_some]
  · exact absurd hProperty h.1
  · have hNone := h.2 hProperty
    rw [isMarked_iff, Decidable.not_not] at hNone
    rw [hFound, hDeclared, hNone, Option.toList_none]

theorem length_declared_le {l : PropertyLine} (h : l.property ≠ "--") :
    (declared? l.pair).toList.length ≤ l.found.length := by
  rcases l.kinds with ⟨name, -, -, -, hFound, hDeclared⟩ | ⟨hProperty, -, -⟩ | ⟨-, hDeclared, -⟩
  · rw [hFound, hDeclared]
    exact Nat.le_refl 1
  · exact absurd hProperty h
  · rw [hDeclared]
    exact Nat.zero_le _

theorem isClear_of_found_eq {l : PropertyLine} (h : l.property ≠ "--")
    (hFound : (declared? l.pair).toList = l.found) : l.IsClear := by
  refine ⟨h, fun hHolds => ?_⟩
  rcases l.kinds with ⟨name, -, -, hDashes, -, -⟩ | ⟨hProperty, -, -⟩ | ⟨-, hDeclared, hValue⟩
  · rw [hHolds] at hDashes
    contradiction
  · exact absurd hProperty h
  · rw [isMarked_iff, Decidable.not_not, ← hValue, ← hFound, hDeclared, Option.toList_none]

/-! ### The line among the declarations -/

theorem isBrace_of_isNameChar {c : CodePoint} (h : isNameChar c = true) : isBrace c = false := by
  rw [Bool.eq_false_iff]
  intro hBrace
  rcases isBrace_iff.1 hBrace with rfl | rfl <;> exact absurd h (by decide)

theorem isBlank_of_isNameChar {c : CodePoint} (h : isNameChar c = true) : isBlank c = false :=
  isBlank_of_isCore (isCore_of_isNameChar h)

theorem noBrace_property (l : PropertyLine) : NoBrace l.property :=
  fun c hc => isBrace_of_isNameChar (l.isNameChar_property c hc)

theorem solid_property (l : PropertyLine) : Solid l.property :=
  fun c hc => isBlank_of_isNameChar (l.isNameChar_property c hc)

theorem oneLine_property (l : PropertyLine) : OneLine l.property := by
  intro c hc
  rw [Bool.eq_false_iff]
  intro hBreak
  have hSolid := l.solid_property c hc
  rw [isBlank_of_isLineBreak hBreak] at hSolid
  contradiction

theorem isDeclaration (l : PropertyLine) (h : l.property ≠ []) : IsDeclaration l.pair where
  property_ne_nil := h
  property_trimmed := by
    rw [show l.pair.1 = trim l.property from l.solid_property.trim_eq.symm]
    exact trimmed_trim _
  property_oneLine := l.oneLine_property
  property_noBrace := l.noBrace_property
  property_noColon hc := absurd (l.isNameChar_property _ hc) (by decide)
  value_ne_nil := l.value_ne_nil
  value_trimmed := l.value_trimmed
  value_oneLine := l.value_oneLine
  value_noBrace := l.value_noBrace

theorem noBrace_line (l : PropertyLine) : NoBrace (declarationLine [] l.pair) := by
  have hColon : NoBrace [.char ':', .char ' '] := by decide
  rw [declarationLine_eq]
  exact l.noBrace_property.append (hColon.append (l.value_noBrace.append (by decide)))

theorem solidLines_line (l : PropertyLine) :
    solidLines (declarationLine [] l.pair) = [declarationLine [] l.pair] := by
  have hColon : OneLine [.char ':', .char ' '] := by decide
  refine solidLines_of_solid ?_ (allBlank_declarationLine [] l.pair)
  rw [declarationLine_eq]
  exact l.oneLine_property.append (hColon.append (l.value_oneLine.append (by decide)))

/-- Without a property, the line holds no declaration. -/
theorem lineDeclarations_line (l : PropertyLine) :
    lineDeclarations (declarationLine [] l.pair) = [l.pair].filter (·.1 ≠ []) := by
  by_cases h : l.property = []
  · have hNone : declaration? (declarationLine [] l.pair) = none := by
      rw [declarationLine_eq, pair, h, List.nil_append, List.nil_append, declaration?,
        ← List.nil_append (_ :: _), halves?_append (by simp)]
      rfl
    rw [lineDeclarations, fragmentsOfLine_of_noBrace l.noBrace_line, List.filterMap_cons, hNone]
    simp [pair, h]
  · rw [lineDeclarations_declarationLine rfl (l.isDeclaration h)]
    simp [pair, h]

end PropertyLine

/-- A rule with its declarations on lines, and without comments. -/
structure PropertyRule where
  selector : Text
  lines : List PropertyLine
  selector_noBrace : NoBrace selector
  selector_oneLine : OneLine selector
  noComment : hasComment (writtenRule selector (lines.map PropertyLine.pair)) = false

namespace PropertyRule

def text (r : PropertyRule) : Text := writtenRule r.selector (r.lines.map PropertyLine.pair)

/-- The custom properties that the rule declares, in order. -/
def declared (r : PropertyRule) : List (Text × Text) :=
  r.lines.flatMap fun l => (declared? l.pair).toList

/-- Nothing but the custom properties of the rule is marked. -/
def IsClear (r : PropertyRule) : Prop :=
  ¬ IsMarked (r.selector ++ [.char ' ', .char '{']) ∧ ∀ l ∈ r.lines, l.IsClear

/-- What is in the braces of a rule. -/
def body (ls : List PropertyLine) : Text :=
  .char '\n' :: (join ['\n'] (ls.map fun l => declarationLine [] l.pair) ++ [.char '\n'])

theorem text_eq (r : PropertyRule) :
    r.text = r.selector ++ [.char ' '] ++ braced (body r.lines) := by
  rw [text, writtenRule, ruleText_eq, List.map_map]
  simp [braced, body, Function.comp_def]

theorem findings_body_append (ls : List PropertyLine) (t : Text) :
    findings (body ls ++ t) = ls.flatMap PropertyLine.found ++ findings t := by
  rw [body, List.cons_append, findings_break, List.append_assoc,
    findings_join_append PropertyLine.findings_append, List.singleton_append, findings_break]

/-- A value runs over the opening brace, or the selector and the lines are scanned one by one. -/
theorem findings_text (r : PropertyRule) :
    (IsMarked (r.selector ++ [.char ' ', .char '{']) ∧ ∃ d ∈ findings r.text, .char '{' ∈ d.2) ∨
      ((IsMarked (r.selector ++ [.char ' ', .char '{']) ↔
          findings (r.selector ++ [.char ' ']) ≠ []) ∧
        findings r.text =
          findings (r.selector ++ [.char ' ']) ++ r.lines.flatMap PropertyLine.found) := by
  have hLead : r.selector ++ [.char ' ', .char '{'] =
      (r.selector ++ [.char ' ']) ++ .char '{' :: [] := by simp
  rw [isMarked_iff, hLead, text_eq, braced]
  rcases findings_append_opening (r.selector ++ [.char ' ']) with hOver | hMore
  · left
    obtain ⟨d, hd, -⟩ := hOver []
    exact ⟨List.ne_nil_of_mem hd, hOver _⟩
  · right
    have hClosing : findings [.char '}'] = [] := (findings_of_none rfl).trans findings_nil
    rw [hMore, hMore, findings_nil, List.append_nil, findings_body_append, hClosing, List.append_nil]
    exact ⟨Iff.rfl, rfl⟩

theorem findings_text_append (r : PropertyRule) (t : Text) :
    findings (r.text ++ t) = findings r.text ++ findings t := by
  obtain ⟨front, hFront⟩ : ∃ front, r.text = front ++ [.char '}'] :=
    ⟨r.selector ++ [.char ' '] ++ .char '{' :: body r.lines, by rw [text_eq, braced]; simp⟩
  have hHere := findings_append_end (c := .char '}') (by decide) front
  rw [hFront, hHere [], findings_nil, List.append_nil, List.append_assoc]
  exact hHere t

theorem noBrace_body (ls : List PropertyLine) : NoBrace (body ls) := by
  have hBreak : NoBrace [.char '\n'] := by decide
  refine hBreak.append (NoBrace.append ?_ hBreak)
  intro c hc
  rcases mem_join hc with hSep | ⟨line, hLine, hc⟩
  · exact hBreak c hSep
  · obtain ⟨l, -, rfl⟩ := List.mem_map.1 hLine
    exact l.noBrace_line c hc

theorem isOneBlock_text (r : PropertyRule) : IsOneBlock r.text := by
  rw [text_eq]
  exact isOneBlock_rule (r.selector_noBrace.append (by decide))
    (nested_of_noBrace (noBrace_body r.lines))

theorem declarations_text (r : PropertyRule) :
    declarations r.text = .ofList ((r.lines.map PropertyLine.pair).filter (·.1 ≠ [])) := by
  refine (declarations_eq_of_solidLines r.selector_noBrace r.noComment
    (solidLines_ruleText r.selector_oneLine _)).trans ?_
  rw [solidLines_join]
  congr 1
  induction r.lines with
  | nil => rfl
  | cons l ls ih =>
    rw [List.map_cons, List.map_cons, List.flatMap_cons, List.flatMap_append, ih,
      l.solidLines_line, List.flatMap_singleton, l.lineDeclarations_line, ← List.filter_append]
    rfl

theorem IsClear.findings_eq {r : PropertyRule} (h : r.IsClear) : findings r.text = r.declared := by
  rcases r.findings_text with ⟨hMarked, -⟩ | ⟨hMarked, hText⟩
  · exact absurd hMarked h.1
  · have hNone := mt hMarked.2 h.1
    rw [ne_eq, Decidable.not_not] at hNone
    rw [hText, hNone, List.nil_append, declared]
    exact List.flatMap_congr fun l hl => (h.2 l hl).found_eq

theorem exists_line_of_mem_declared {r : PropertyRule} {d : Text × Text} (h : d ∈ r.declared) :
    ∃ l ∈ r.lines, declared? l.pair = some d := by
  obtain ⟨l, hl, hd⟩ := List.mem_flatMap.1 h
  exact ⟨l, hl, Option.mem_toList.1 hd⟩

theorem noBrace_of_mem_declared {r : PropertyRule} {d : Text × Text} (h : d ∈ r.declared) :
    NoBrace d.2 := by
  obtain ⟨l, -, hDeclared⟩ := exists_line_of_mem_declared h
  obtain ⟨name, -, rfl⟩ := Option.map_eq_some_iff.1 hDeclared
  exact l.value_noBrace

/-- Where no value runs over the brace and no property is without a name, no less is found than is
declared. -/
theorem length_declared_le {r : PropertyRule} (hOver : ∀ d ∈ findings r.text, .char '{' ∉ d.2)
    (hNames : ∀ l ∈ r.lines, l.property ≠ "--") :
    r.declared.length ≤ (findings r.text).length := by
  rcases r.findings_text with ⟨-, d, hd, hBrace⟩ | ⟨-, hText⟩
  · exact absurd hBrace (hOver d hd)
  · have hLines := length_flatMap_le fun (l : PropertyLine) hl =>
      l.length_declared_le (hNames l hl)
    rw [hText, List.length_append]
    exact Nat.le_trans hLines (Nat.le_add_left _ _)

theorem isClear_of_findings_eq {r : PropertyRule} (hOver : ∀ d ∈ findings r.text, .char '{' ∉ d.2)
    (hNames : ∀ l ∈ r.lines, l.property ≠ "--") (h : r.declared = findings r.text) :
    r.IsClear := by
  rcases r.findings_text with ⟨-, d, hd, hBrace⟩ | ⟨hMarked, hText⟩
  · exact absurd hBrace (hOver d hd)
  · have hLe : ∀ l ∈ r.lines, (declared? l.pair).toList.length ≤ l.found.length :=
      fun l hl => l.length_declared_le (hNames l hl)
    have hLength := congrArg List.length (h.trans hText)
    have hLines := length_flatMap_le hLe
    rw [List.length_append, declared] at hLength
    have hNone : findings (r.selector ++ [.char ' ']) = [] := List.length_eq_zero_iff.1 (by omega)
    rw [hText, hNone, List.nil_append] at h
    refine ⟨fun hMark => hMarked.1 hMark hNone, fun l hl => ?_⟩
    exact l.isClear_of_found_eq (hNames l hl) (eq_of_flatMap_eq hLe h l hl)

/-- The custom properties among the declarations of the rule. -/
theorem filterMap_declarations (r : PropertyRule) :
    (declarations r.text).entries.filterMap declared? = (OrderedMap.ofList r.declared).entries := by
  have hInjective : ∀ k k' i : Text, strip? "--" k = some i → strip? "--" k' = some i → k = k' := by
    intro k k' i hk hk'
    rw [strip?_eq_some_iff.1 hk, strip?_eq_some_iff.1 hk']
  have hNamed : ∀ l : PropertyLine,
      (if decide (l.pair.1 ≠ []) = true then declared? l.pair else none) = declared? l.pair := by
    intro l
    by_cases h : l.property = []
    · simp [PropertyLine.pair, declared?, rekey, h, strip?, ofString]
    · exact if_pos (decide_eq_true h)
  rw [declarations_text, declared?, OrderedMap.filterMap_ofList hInjective, ← declared?,
    List.filterMap_filter, List.filterMap_map, List.filterMap_eq_flatMap_toList, declared]
  simp only [Function.comp_apply, hNamed]

end PropertyRule

/-- The rules in order, each on lines of its own, and perhaps blanks behind them. -/
def sheetText (rules : List PropertyRule) (trail : Text) : Text :=
  join ['\n'] (rules.map PropertyRule.text) ++ trail

/-- The custom properties that the blocks of a stylesheet declare. -/
def declaredProperties (sheet : Text) : OrderedMap Text Text :=
  .ofList ((blocks sheet).flatMap fun block => (declarations block).entries.filterMap declared?)

section Sheet

variable {trail : Text}

theorem findings_sheetText (hTrail : allBlank trail = true) (rules : List PropertyRule) :
    findings (sheetText rules trail) = rules.flatMap fun r => findings r.text := by
  have hEnd : findings trail = [] := by
    have hGap := isScanner_customProperty?.allMatches_gap (u := trail)
      (fun c hc => isGapChar_iff.2 (Or.inl (allBlank_iff.1 hTrail c hc))) []
    rw [List.append_nil] at hGap
    exact hGap.trans findings_nil
  rw [sheetText, findings_join_append PropertyRule.findings_text_append, hEnd, List.append_nil]

theorem blocks_sheetText (hTrail : allBlank trail = true) (rules : List PropertyRule) :
    blocks (sheetText rules trail) = rules.map fun r => blockText r.text := by
  unfold sheetText
  induction rules with
  | nil => exact blocks_of_allBlank hTrail
  | cons r rules ih =>
    by_cases hRules : rules = []
    · subst hRules
      exact blocks_append_blank r.isOneBlock_text hTrail
    · rw [List.map_cons, join_cons (by simpa using hRules), List.append_assoc, List.append_assoc,
        List.singleton_append, blocks_append_break r.isOneBlock_text isLineBreak_lineFeed, ih,
        List.map_cons]

theorem declaredProperties_sheetText (hTrail : allBlank trail = true)
    (rules : List PropertyRule) :
    declaredProperties (sheetText rules trail) = .ofList (rules.flatMap PropertyRule.declared) := by
  rw [declaredProperties, blocks_sheetText hTrail, List.flatMap_map]
  simp only [declarations_blockText, PropertyRule.filterMap_declarations]
  exact OrderedMap.insertAll_flatMap_ofList _ rules PropertyRule.declared

/-- The scan finds what is declared, in order and nothing else, just where every rule is clear. -/
theorem findings_sheetText_eq_iff (hTrail : allBlank trail = true) (rules : List PropertyRule) :
    findings (sheetText rules trail) = rules.flatMap PropertyRule.declared ↔
      ∀ r ∈ rules, r.IsClear := by
  rw [findings_sheetText hTrail]
  constructor
  · intro hEq
    have hOver : ∀ r ∈ rules, ∀ d ∈ findings r.text, .char '{' ∉ d.2 := by
      intro r hr d hd hBrace
      have hMem : d ∈ rules.flatMap PropertyRule.declared := by
        rw [← hEq]
        exact List.mem_flatMap.2 ⟨r, hr, hd⟩
      obtain ⟨r', -, hd'⟩ := List.mem_flatMap.1 hMem
      exact absurd (PropertyRule.noBrace_of_mem_declared hd' _ hBrace) (by decide)
    have hNames : ∀ r ∈ rules, ∀ l ∈ r.lines, l.property ≠ "--" := by
      intro r hr l hl hProperty
      have hDeclared : declared? l.pair = some ([], l.value) := by
        simp [declared?, rekey, PropertyLine.pair, hProperty, strip?, ofString]
      have hMem : (([], l.value) : Text × Text) ∈ rules.flatMap fun r => findings r.text := by
        rw [hEq]
        exact List.mem_flatMap.2 ⟨r, hr, List.mem_flatMap.2 ⟨l, hl, by rw [hDeclared]; simp⟩⟩
      obtain ⟨r', -, hd⟩ := List.mem_flatMap.1 hMem
      exact name_ne_nil_of_mem_findings hd rfl
    intro r hr
    apply PropertyRule.isClear_of_findings_eq (hOver r hr) (hNames r hr)
    refine eq_of_flatMap_eq (fun r hr => ?_) hEq.symm r hr
    exact PropertyRule.length_declared_le (hOver r hr) (hNames r hr)
  · intro hClear
    exact List.flatMap_congr fun r hr => (hClear r hr).findings_eq

/-- A selector with dashes and a colon. -/
def hoverRule : PropertyRule where
  selector := ".btn--primary:hover"
  lines := [⟨"color", "red", by decide, by decide, by decide, ⟨by decide, by decide⟩, by decide,
    by decide, by decide⟩]
  selector_noBrace := by decide
  selector_oneLine := by decide
  noComment := by decide +kernel

/-- What is found in a selector is no declaration. -/
theorem customProperties_hoverRule :
    hoverRule.text = ".btn--primary:hover \x7b\ncolor: red;\n\x7d" ∧
      (customProperties (sheetText [hoverRule] [])).entries =
        [(("primary" : Text), ("hover \x7b\ncolor: red" : Text))] ∧
      (declaredProperties (sheetText [hoverRule] [])).entries = [] := by
  refine ⟨by decide +kernel, by decide +kernel, by decide +kernel⟩

/-- The custom properties that are found are those that are declared, in order, just where nothing
else in the rules is marked. Then the stylesheet has the custom properties that its blocks have. -/
theorem customProperties_sheetText (hTrail : allBlank trail = true) (rules : List PropertyRule) :
    declaredProperties (sheetText rules trail) = .ofList (rules.flatMap PropertyRule.declared) ∧
      (allMatches customProperty? (sheetText rules trail) =
          rules.flatMap PropertyRule.declared ↔ ∀ r ∈ rules, r.IsClear) ∧
      ((∀ r ∈ rules, r.IsClear) →
        customProperties (sheetText rules trail) = declaredProperties (sheetText rules trail)) := by
  have hDeclared := declaredProperties_sheetText hTrail rules
  have hFound := findings_sheetText_eq_iff hTrail rules
  refine ⟨hDeclared, hFound, fun hClear => ?_⟩
  rw [hDeclared, ← hFound.2 hClear]
  rfl

/-- Two values of one custom property, and a value that uses it. -/
def themeRule : PropertyRule where
  selector := ".card--wide"
  lines := [
    ⟨"--main", "red", by decide, by decide, by decide, ⟨by decide, by decide⟩, by decide,
      by decide, by decide⟩,
    ⟨"color", "var(--main)", by decide, by decide, by decide, ⟨by decide, by decide⟩, by decide,
      by decide, by decide⟩,
    ⟨"--main", "a--b: c", by decide, by decide, by decide, ⟨by decide, by decide⟩, by decide,
      by decide, by decide⟩]
  selector_noBrace := by decide
  selector_oneLine := by decide
  noComment := by decide +kernel

theorem customProperties_themeRule :
    allBlank "\n" = true ∧ (∀ r ∈ [themeRule], r.IsClear) ∧
      customProperties (sheetText [themeRule] "\n") =
        declaredProperties (sheetText [themeRule] "\n") := by
  have hBlank : allBlank "\n" = true := by decide
  have hClear : ∀ r ∈ [themeRule], r.IsClear := by
    simp only [List.forall_mem_singleton, PropertyRule.IsClear, PropertyLine.IsClear, isMarked_iff]
    decide +kernel
  exact ⟨hBlank, hClear, (customProperties_sheetText hBlank [themeRule]).2.2 hClear⟩

end Sheet

end StyleScaffold.Css
