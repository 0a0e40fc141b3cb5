import StyleScaffold.Proofs.Component
import StyleScaffold.Proofs.Except
import StyleScaffold.Stylesheet

/-!
# Stylesheets and their components

A stylesheet gives a component when its first block has classes (`componentOfStylesheet_eq_ok`).
Then the component is plain, so its rule is read as the same component again: the classes and the
counts are the same, and from then on the name and the rule are too
(`componentOfStylesheet_declarationsRule`). Two assumptions are needed. The default name must be
of letters and digits, as every other name is, and the rule must not hold a comment, because what
is in a comment is not read.
-/

namespace StyleScaffold

open Text Css

/-! ## Steps of a conversion -/

/-- Stylesheets with a block are not blank. -/
theorem requiredBlocks_eq_ok {sheet : Text} {bs : List Text} :
    requiredBlocks sheet = .ok bs ↔ blocks sheet = bs ∧ bs ≠ [] := by
  constructor
  · intro h
    unfold requiredBlocks at h
    split at h
    · cases h
    · split at h
      · cases h
      · rename_i hBlocks
        cases h
        exact ⟨rfl, by simpa using hBlocks⟩
  · rintro ⟨rfl, hne⟩
    have hSolid : ¬ allBlank sheet = true := fun hBlank => hne (blocks_of_allBlank hBlank)
    rw [requiredBlocks, if_neg hSolid, if_neg (by simpa using hne)]

theorem convertBlock_eq_ok {policies : Policies} {block : Text} {b : ConvertedBlock} :
    convertBlock policies block = .ok b ↔
      ∃ classes, Utility.classes policies (declarations block) = .ok classes ∧
        ⟨blockSelector block, declarations block, classes⟩ = b := by
  simp only [convertBlock, bind_eq_ok, mapError_eq_ok, pure, Except.pure, Except.ok.injEq]

/-- A component is what is read from the first block, under the name of the whole text. -/
theorem componentOfStylesheet_eq_ok {settings : ConversionSettings} {sheet : Text}
    {c : Component} :
    componentOfStylesheet settings sheet = .ok c ↔
      ∃ block rest, blocks sheet = block :: rest ∧
        Utility.classes settings.policies (declarations block) = .ok c.classes ∧
        c.name = componentName settings.defaultName sheet ∧
        c.declarations = declarations block := by
  simp only [componentOfStylesheet, bind_eq_ok, requiredBlocks_eq_ok, convertBlock_eq_ok, pure,
    Except.pure, Except.ok.injEq]
  constructor
  · rintro ⟨bs, ⟨hBlocks, hne⟩, b, ⟨classes, hClasses, rfl⟩, rfl⟩
    obtain ⟨block, rest, rfl⟩ := List.exists_cons_of_ne_nil hne
    exact ⟨block, rest, hBlocks, hClasses, rfl, rfl⟩
  · rintro ⟨block, rest, hBlocks, hClasses, hName, hDeclarations⟩
    refine ⟨block :: rest, ⟨hBlocks, by simp⟩, _, ⟨c.classes, hClasses, rfl⟩, ?_⟩
    rw [← hName, List.headD_cons, ← hDeclarations]

/-! ## Reading the rule of a component again -/

theorem isPlain_of_componentOfStylesheet {settings : ConversionSettings} {sheet : Text}
    {c : Component} (hDefault : ∀ x ∈ settings.defaultName, isAsciiAlnum x = true)
    (h : componentOfStylesheet settings sheet = .ok c) : c.IsPlain := by
  obtain ⟨block, rest, -, -, hName, hDeclarations⟩ := componentOfStylesheet_eq_ok.1 h
  refine ⟨?_, ?_⟩
  · rw [hName]
    exact isAsciiAlnum_of_mem_componentName hDefault sheet
  · rw [hDeclarations]
    exact fun d hd => isDeclaration_of_mem_declarations hd

/-- The rule of a component that was read from a stylesheet is a stylesheet of a component with
the same classes and counts. If the name begins with a letter, this component has the name in
lower case and the same rule. -/
theorem componentOfStylesheet_declarationsRule {settings : ConversionSettings} {sheet : Text}
    {c : Component} (hDefault : ∀ x ∈ settings.defaultName, isAsciiAlnum x = true)
    (h : componentOfStylesheet settings sheet = .ok c)
    (hComment : hasComment c.declarationsRule = false) :
    ∃ d, componentOfStylesheet settings c.declarationsRule = .ok d ∧
      d.classes = c.classes ∧ d.customValueClasses = c.customValueClasses ∧
      d.statistics = c.statistics ∧
      ∀ x rest, c.name = x :: rest → isAsciiLetter x = true →
        d.name = lower c.name ∧ d.declarationsRule = c.declarationsRule := by
  have hPlain := isPlain_of_componentOfStylesheet hDefault h
  have hDeclarations := hPlain.declarations_declarationsRule hComment
  obtain ⟨block, -, -, hClasses, -, hRead⟩ := componentOfStylesheet_eq_ok.1 h
  let d : Component :=
    ⟨componentName settings.defaultName c.declarationsRule, c.classes, c.declarations⟩
  have hAgain : componentOfStylesheet settings c.declarationsRule = .ok d := by
    rw [componentOfStylesheet_eq_ok]
    refine ⟨c.declarationsRule, [], hPlain.blocks_declarationsRule, ?_, rfl, hDeclarations.symm⟩
    rw [hDeclarations, hRead]
    exact hClasses
  refine ⟨d, hAgain, rfl, rfl, rfl, ?_⟩
  intro x rest hName hLetter
  have hLower : d.name = lower c.name :=
    hPlain.componentName_declarationsRule hComment hName hLetter settings.defaultName
  refine ⟨hLower, ?_⟩
  have hSelector : lower d.name = lower c.name := by rw [hLower, lower_lower hPlain.name_alnum]
  unfold Component.declarationsRule
  rw [hSelector]

/-- A component with one declaration, as it is read from a text that names it in a comment. -/
def card : Component := ⟨"Card", ["gap-2"], .ofList [("gap", "7px")]⟩

theorem componentOfStylesheet_card :
    componentOfStylesheet {} "/* Card */\n.x \x7b gap: 7px; \x7d" = .ok card := by
  refine componentOfStylesheet_eq_ok.2
    ⟨"/* Card */\n.x \x7b gap: 7px; \x7d", [], ?_, eq_ok_of_toOption ?_, ?_, OrderedMap.ext ?_⟩
  all_goals decide +kernel

/-- The rule of that component is read as a component with the name `card`. -/
theorem componentOfStylesheet_declarationsRule_card :
    componentOfStylesheet {} "/* Card */\n.x \x7b gap: 7px; \x7d" = .ok card ∧
      hasComment card.declarationsRule = false ∧
      ∃ d, componentOfStylesheet {} card.declarationsRule = .ok d ∧ d.classes = card.classes ∧
        d.name = "card" ∧ d.declarationsRule = card.declarationsRule := by
  have hComment : hasComment card.declarationsRule = false := by decide +kernel
  obtain ⟨d, hAgain, hClasses, -, -, hName⟩ :=
    componentOfStylesheet_declarationsRule (by decide) componentOfStylesheet_card hComment
  obtain ⟨hLower, hRule⟩ := hName (.char 'C') ("ard" : Text) rfl (by decide)
  have hCard : lower card.name = ("card" : Text) := by decide +kernel
  exact ⟨componentOfStylesheet_card, hComment, d, hAgain, hClasses, hLower.trans hCard, hRule⟩

end StyleScaffold
