import StyleScaffold.Proofs.Component

/-!
# Names as identifiers

A component's name is the name of a constant in its code and, in lower case, that of a class in its
rule. For this it has to begin with a letter. The names of classes and defaults do, but a comment is
stripped of everything except letters and digits, and a digit may come first.

* `classSelector?_declarationsRule`, `declaredName?_scriptCode`: the name can be read from the rule
  and from the code just if it is an identifier.
* `isIdentifier_contentName?_iff`: the identifiers among the names of comments.
* `componentName_isIdentifier_iff`: the stylesheets whose component has an identifier for its name.
-/

namespace StyleScaffold

open Text Css

/-- A letter, and behind it letters and digits. -/
structure IsIdentifier (s : Text) : Prop where
  letter : s.head?.any isAsciiLetter = true
  alnum : ∀ c ∈ s, isAsciiAlnum c = true

theorem isIdentifier_iff {s : Text} :
    IsIdentifier s ↔ s.head?.any isAsciiLetter = true ∧ ∀ c ∈ s, isAsciiAlnum c = true :=
  ⟨fun h => ⟨h.letter, h.alnum⟩, fun h => ⟨h.1, h.2⟩⟩

instance (s : Text) : Decidable (IsIdentifier s) := decidable_of_iff' _ isIdentifier_iff

theorem IsIdentifier.exists_cons {s : Text} (h : IsIdentifier s) :
    ∃ c rest, s = c :: rest ∧ isAsciiLetter c = true := by
  cases s with
  | nil => exact absurd h.letter Bool.false_ne_true
  | cons c rest => exact ⟨c, rest, rfl, h.letter⟩

theorem IsIdentifier.ne_nil {s : Text} (h : IsIdentifier s) : s ≠ [] := by
  rintro rfl
  exact absurd h.letter Bool.false_ne_true

theorem isAsciiAlnum_of_isAsciiLetter {c : CodePoint} (h : isAsciiLetter c = true) :
    isAsciiAlnum c = true := by
  rw [isAsciiAlnum, h, Bool.or_true]

/-! ## Names in a scaffold -/

/-- The identifier at the start of a text. -/
def identifier? (s : Text) : Option Text :=
  if s.head?.any isAsciiLetter then some (s.takeWhile isAsciiAlnum) else none

/-- The name of the constant that is declared behind a closing brace and an empty line. -/
def declaredName? (s : Text) : Option Text := do
  let rest ← strip? "\x7d\n\nconst " s
  let name ← identifier? rest
  if startsWith " = " (rest.drop name.length) then some name else none

theorem isIdentifier_of_identifier? {s name : Text} (h : identifier? s = some name) :
    IsIdentifier name := by
  rw [identifier?, Option.ite_none_right_eq_some, Option.some.injEq] at h
  obtain ⟨hLetter, rfl⟩ := h
  refine ⟨?_, List.all_eq_true.1 List.all_takeWhile⟩
  cases s with
  | nil => cases hLetter
  | cons c s =>
    rw [List.takeWhile_cons, if_pos (isAsciiAlnum_of_isAsciiLetter hLetter)]
    exact hLetter

theorem isIdentifier_of_declaredName? {s name : Text} (h : declaredName? s = some name) :
    IsIdentifier name := by
  simp only [declaredName?, Option.bind_eq_bind, Option.bind_eq_some_iff,
    Option.ite_none_right_eq_some, Option.some.injEq] at h
  obtain ⟨rest, -, own, hName, -, rfl⟩ := h
  exact isIdentifier_of_identifier? hName

theorem IsIdentifier.declaredName? {name : Text} (h : IsIdentifier name) (rest : Text) :
    declaredName? ("\x7d\n\nconst " ++ (name ++ (" = " ++ rest))) = some name := by
  obtain ⟨c, tail, rfl, hc⟩ := h.exists_cons
  have hTake : (c :: tail ++ (" = " ++ rest)).takeWhile isAsciiAlnum = c :: tail := by
    rw [List.takeWhile_append_of_pos h.alnum]
    exact List.append_nil _
  have hName : identifier? (c :: tail ++ (" = " ++ rest)) = some (c :: tail) := by
    rw [identifier?, hTake]
    exact if_pos hc
  have hEqual : startsWith " = " (" = " ++ rest) = true := rfl
  simp only [StyleScaffold.declaredName?, strip?_eq_some_iff.2 rfl, hName, List.drop_left, hEqual,
    Option.bind_eq_bind, Option.bind_some, if_true]

/-- Nothing is declared at a text that does not begin with a closing brace and an empty line. -/
theorem declaredName?_cons {c : CodePoint} (hc : c ≠ '\x7d') (s : Text) :
    declaredName? (c :: s) = none := by
  have hStrip : strip? "\x7d\n\nconst " (c :: s) = none := if_neg (Ne.symm hc)
  rw [declaredName?, hStrip]
  rfl

namespace Component

/-- In the code of a component the constant stands behind an import and the interface. -/
theorem exists_scriptCode_eq (c : Component) :
    ∃ rest : Text, c.scriptCode =
      "import React from 'react';\nimport \x7b cn " ++ ("\x7d " ++ ("from '@/lib/utils';\n\n" ++
        ("interface " ++ (c.name ++ ("Props \x7b\n  children?: React.ReactNode;\n" ++
          ("  className?: string;\n" ++ ("\x7d\n\nconst " ++
            (c.name ++ (" = " ++ rest))))))))) := by
  have hImport :
      ("import React from 'react';\nimport \x7b cn \x7d from '@/lib/utils';\n\n" : Text) =
        "import React from 'react';\nimport \x7b cn " ++
          ("\x7d " ++ "from '@/lib/utils';\n\n") := by
    decide +kernel
  have hInterface :
      ("  className?: string;\n\x7d" : Text) = "  className?: string;\n" ++ "\x7d" := by
    decide +kernel
  have hConstant : ("\x7d\n\nconst " : Text) = "\x7d" ++ "\n\nconst " := by decide +kernel
  have hEqual : (" = (\x7b children, className \x7d: " : Text) =
      " = " ++ "(\x7b children, className \x7d: " := by
    decide +kernel
  rw [scriptCode, propsContract, hImport, hInterface, hConstant, hEqual]
  simp only [List.append_assoc]
  exact ⟨_, rfl⟩

/-- The constant in the code of a component has the name of the component if this is an identifier.
Otherwise no constant of this name is found there. -/
theorem declaredName?_scriptCode (c : Component) :
    firstMatch declaredName? c.scriptCode = some c.name ↔ IsIdentifier c.name := by
  constructor
  · intro h
    obtain ⟨front, back, -, hName⟩ := exists_of_firstMatch h
    exact isIdentifier_of_declaredName? hName
  · intro h
    have hName : .char '\x7d' ∉ c.name := fun hMem => absurd (h.alnum _ hMem) (by decide)
    have hPass : ∀ {lead : Text}, .char '\x7d' ∉ lead → ∀ s,
        firstMatch declaredName? (lead ++ s) = firstMatch declaredName? s := by
      intro lead hLead
      refine firstMatch_append fun d hd s => declaredName?_cons ?_ s
      rintro rfl
      exact hLead hd
    -- The import has a closing brace as well, but no empty line behind it.
    have hImport : ∀ s : Text, firstMatch declaredName? ("\x7d " ++ s) =
        firstMatch declaredName? s := fun _ => rfl
    obtain ⟨rest, hCode⟩ := c.exists_scriptCode_eq
    rw [hCode, hPass (by decide), hImport, hPass (by decide), hPass (by decide), hPass hName,
      hPass (by decide), hPass (by decide)]
    exact firstMatch_of_match (h.declaredName? rest)

theorem exists_declarationsRule_eq (c : Component) :
    ∃ rest, c.declarationsRule = .char '.' :: (lower c.name ++ .char ' ' :: rest) := by
  rw [declarationsRule]
  split
  · exact ⟨_, rfl⟩
  · exact ⟨_, by rw [ruleText]; simp only [List.append_assoc]; rfl⟩

/-- The class of a component's rule has the name of the component in lower case if this is an
identifier, and no name otherwise. -/
theorem classSelector?_declarationsRule {c : Component}
    (hAlnum : ∀ x ∈ c.name, isAsciiAlnum x = true) :
    classSelector? c.declarationsRule = some (lower c.name) ↔ IsIdentifier c.name := by
  have hLower := isAsciiAlnum_of_mem_lower hAlnum
  have hMap := lower_eq_map fun x hx => isAscii_of_isAsciiAlnum (hAlnum x hx)
  obtain ⟨rest, hRule⟩ := c.exists_declarationsRule_eq
  rw [hRule, isIdentifier_iff, and_iff_left hAlnum]
  rw [hMap] at hLower ⊢
  cases hName : c.name with
  | nil => exact iff_of_false (fun h => nomatch h) Bool.false_ne_true
  | cons x name =>
    rw [hName] at hLower
    change _ ↔ isAsciiLetter x = true
    rw [← isAsciiLetter_asciiLower_iff]
    constructor
    · intro h
      rw [List.map_cons, List.cons_append, classSelector?, Option.ite_none_right_eq_some] at h
      exact h.1
    · intro h
      exact classSelector?_class h hLower

end Component

/-! ## Names from stylesheets -/

/-- The name of a comment is an identifier if the first letter or digit in the comment is a
letter. -/
theorem isIdentifier_contentName?_iff {content name : Text} (h : contentName? content = some name) :
    IsIdentifier name ↔ (content.find? isAsciiAlnum).any isAsciiLetter = true := by
  simp only [contentName?, identifierIn?, Option.ite_none_left_eq_some, Option.some.injEq] at h
  obtain ⟨-, -, rfl⟩ := h
  rw [isIdentifier_iff, List.head?_filter]
  exact and_iff_left fun c hc => (List.mem_filter.1 hc).2

theorem ne_nil_of_contentName? {content name : Text} (h : contentName? content = some name) :
    name ≠ [] := by
  simp only [contentName?, identifierIn?, Option.ite_none_left_eq_some, Option.some.injEq] at h
  obtain ⟨-, hSome, rfl⟩ := h
  simpa using hSome

theorem isIdentifier_of_nameFromSelector? {sheet name : Text}
    (h : nameFromSelector? sheet = some name) : IsIdentifier name := by
  refine ⟨?_, isAsciiAlnum_of_nameFromSelector? h⟩
  obtain ⟨selector, hMatch, rfl⟩ := Option.map_eq_some_iff.1 h
  obtain ⟨front, back, -, hClass⟩ := exists_of_firstMatch hMatch
  unfold classSelector? at hClass
  split at hClass
  · obtain ⟨hLetter, hSelector⟩ := Option.ite_none_right_eq_some.1 hClass
    rw [← Option.some.inj hSelector, List.filter_cons,
      if_pos (isAsciiAlnum_of_isAsciiLetter hLetter)]
    exact hLetter
  · cases hClass

/-- A comment that names its component with a digit in front. -/
def countedColumns : Text := "/* 2 columns */"

theorem not_componentName_isIdentifier :
    ¬ ∀ default sheet, IsIdentifier default → IsIdentifier (componentName default sheet) := by
  intro h
  exact absurd (h "Component" countedColumns (by decide)) (by decide)

/-- A component has a name, and this consists of letters and digits. It is an identifier unless a
comment gives it in which a digit comes before any letter. So it can be read from the rule and from
the code unless there is such a comment. -/
theorem componentName_isIdentifier_iff {default : Text} (hDefault : IsIdentifier default)
    (sheet : Text) :
    componentName default sheet ≠ [] ∧
      (∀ c ∈ componentName default sheet, isAsciiAlnum c = true) ∧
      (IsIdentifier (componentName default sheet) ↔
        ∀ content, firstMatch plainComment? sheet = some content →
          (contentName? content).isSome = true →
            (content.find? isAsciiAlnum).any isAsciiLetter = true) ∧
      ∀ c : Component, c.name = componentName default sheet →
        (classSelector? c.declarationsRule = some (lower c.name) ↔ IsIdentifier c.name) ∧
          (firstMatch declaredName? c.scriptCode = some c.name ↔ IsIdentifier c.name) := by
  have hAlnum := isAsciiAlnum_of_mem_componentName hDefault.alnum sheet
  have hOther : IsIdentifier ((nameFromSelector? sheet).getD default) := by
    cases hSelector : nameFromSelector? sheet with
    | none => exact hDefault
    | some name => exact isIdentifier_of_nameFromSelector? hSelector
  have hNames : componentName default sheet ≠ [] ∧ (IsIdentifier (componentName default sheet) ↔
      ∀ content, firstMatch plainComment? sheet = some content →
        (contentName? content).isSome = true →
          (content.find? isAsciiAlnum).any isAsciiLetter = true) := by
    rw [componentName, nameFromComment?_eq]
    cases firstMatch plainComment? sheet with
    | none =>
      refine ⟨hOther.ne_nil, iff_of_true hOther ?_⟩
      intro content hContent
      cases hContent
    | some content =>
      simp only [Option.bind_some, Option.some.injEq, forall_eq']
      cases hName : contentName? content with
      | none => exact ⟨hOther.ne_nil, iff_of_true hOther fun h => absurd h Bool.false_ne_true⟩
      | some name =>
        refine ⟨ne_nil_of_contentName? hName, ?_⟩
        rw [isIdentifier_contentName?_iff hName]
        exact ⟨fun h _ => h, fun h => h rfl⟩
  refine ⟨hNames.1, hAlnum, hNames.2, fun c hc => ⟨?_, c.declaredName?_scriptCode⟩⟩
  refine Component.classSelector?_declarationsRule ?_
  rw [hc]
  exact hAlnum

/-- A comment in which a letter comes first. -/
def cardTwo : Text := "/* Card 2 */"

theorem componentName_isIdentifier_cardTwo :
    IsIdentifier (componentName "Component" cardTwo) ∧
      ¬ IsIdentifier (componentName "Component" countedColumns) := by
  have hDefault : IsIdentifier "Component" := by decide
  constructor
  · obtain ⟨-, -, hName, -⟩ := componentName_isIdentifier_iff hDefault cardTwo
    refine hName.2 fun content hContent _ => ?_
    have hCard : firstMatch plainComment? cardTwo = some "Card 2" := by decide
    rw [hCard] at hContent
    cases hContent
    decide
  · obtain ⟨-, -, hName, -⟩ := componentName_isIdentifier_iff hDefault countedColumns
    have hColumns : firstMatch plainComment? countedColumns = some "2 columns" := by decide
    intro h
    exact absurd (hName.1 h "2 columns" hColumns (by decide)) (by decide)

end StyleScaffold
