import StyleScaffold.Proofs.Stylesheet.Refusal

/-!
# The first block of a stylesheet

A component is read from the first block, and block by block a stylesheet gives that block first.
Both conversions find it in the same way: it is the shortest balanced prefix of the solid lines
(`exists_blocks_eq_cons_iff`), and there is none exactly when no prefix is balanced
(`blocks_eq_nil_iff`). What the prefix is does not depend on the lines behind it
(`IsShortestBalanced.of_prefix`).

* `refusals_iff`: the two conversions refuse the same stylesheets for the same reasons.
* `conversions_agree`: where both give a result, the component is made of the name of the text and
  of the first block, and it keeps the block's classes and declarations whatever follows.
-/

namespace StyleScaffold

open Text Css

namespace Css

/-! ## The first block and its lines -/

theorem exists_blocks_eq_cons_iff {sheet block : Text} :
    (∃ rest, blocks sheet = block :: rest) ↔
      ∃ group, IsShortestBalanced group (solidLines sheet) ∧ blockOfLines group = block := by
  constructor
  · rintro ⟨rest, hBlocks⟩
    obtain ⟨left, hFactor⟩ := exists_factorization_groups (solidLines sheet)
    obtain ⟨group, more, hGroups, hBlock, -⟩ := List.map_eq_cons_iff.1 hBlocks
    rw [hGroups] at hFactor
    cases hFactor with
    | group append shortest _ => exact ⟨group, shortest, hBlock⟩
  · rintro ⟨group, hShortest, rfl⟩
    obtain ⟨more, hLines⟩ := hShortest.isPrefix
    rw [← hLines] at hShortest
    refine ⟨(groups more).map blockOfLines, ?_⟩
    rw [blocks, ← hLines, groups_append hShortest, List.map_cons]

end Css

/-! ## The same refusals -/

theorem requiredBlocks_eq_blank_iff {sheet : Text} :
    requiredBlocks sheet = .error .blank ↔ allBlank sheet = true := by
  simp [requiredBlocks_eq_error_iff]

theorem requiredBlocks_eq_noBlock_iff {sheet : Text} :
    requiredBlocks sheet = .error .noBlock ↔
      allBlank sheet = false ∧ ∀ p, p <+: solidLines sheet → p ≠ [] → ¬ Balanced p := by
  simp [requiredBlocks_eq_error_iff, blocks_eq_nil_iff]

/-- A refusal is a matter of the blocks alone. -/
theorem refusals_iff (settings : ConversionSettings) (sheet : Text) (fault : StylesheetFault)
    (hFault : fault ≠ .number .tooLarge) :
    (componentOfStylesheet settings sheet = .error fault ↔ requiredBlocks sheet = .error fault) ∧
      (convertStylesheet settings.policies sheet = .error fault ↔
        requiredBlocks sheet = .error fault) := by
  rw [componentOfStylesheet_eq_error_iff, convertStylesheet_eq_error_iff]
  exact ⟨or_iff_left fun h => hFault h.1, or_iff_left fun h => hFault h.1⟩

/-! ## The same first block -/

theorem convertStylesheet_eq_ok_iff {policies : Policies} {sheet : Text}
    {bs : List ConvertedBlock} :
    convertStylesheet policies sheet = .ok bs ↔
      blocks sheet ≠ [] ∧ (blocks sheet).map (convertBlock policies) = bs.map .ok := by
  simp only [convertStylesheet, bind_eq_ok, requiredBlocks_eq_ok, mapM_eq_ok_iff]
  constructor
  · rintro ⟨_, ⟨rfl, hne⟩, hConverted⟩
    exact ⟨hne, hConverted⟩
  · rintro ⟨hne, hConverted⟩
    exact ⟨_, ⟨rfl, hne⟩, hConverted⟩

/-- The first of the converted blocks is the first block, converted. -/
theorem convertBlock_of_convertStylesheet {policies : Policies} {sheet block : Text}
    {rest : List Text} {bs : List ConvertedBlock} (hBlocks : blocks sheet = block :: rest)
    (h : convertStylesheet policies sheet = .ok bs) :
    ∃ b more, bs = b :: more ∧ convertBlock policies block = .ok b := by
  obtain ⟨-, hConverted⟩ := convertStylesheet_eq_ok_iff.1 h
  rw [hBlocks, List.map_cons] at hConverted
  obtain ⟨b, more, rfl, hFirst, -⟩ := List.map_eq_cons_iff.1 hConverted.symm
  exact ⟨b, more, rfl, hFirst.symm⟩

theorem componentOfStylesheet_of_convertBlock {settings : ConversionSettings}
    {sheet block : Text} {rest : List Text} {b : ConvertedBlock}
    (hBlocks : blocks sheet = block :: rest)
    (h : convertBlock settings.policies block = .ok b) :
    componentOfStylesheet settings sheet =
      .ok ⟨componentName settings.defaultName sheet, b.classes, b.declarations⟩ := by
  obtain ⟨classes, hClasses, rfl⟩ := convertBlock_eq_ok.1 h
  exact componentOfStylesheet_eq_ok.2 ⟨block, rest, hBlocks, hClasses, rfl, rfl⟩

/-- Both conversions refuse a blank stylesheet as blank, and one without a balanced prefix of its
solid lines as one without a block. Where both give a result, the component has its name from the
text and the rest from the first converted block, and each text that begins with the lines of that
block gives the same block first and the same classes and declarations. -/
theorem conversions_agree (settings : ConversionSettings) (sheet : Text) :
    (componentOfStylesheet settings sheet = .error .blank ↔ allBlank sheet = true) ∧
      (convertStylesheet settings.policies sheet = .error .blank ↔ allBlank sheet = true) ∧
      (componentOfStylesheet settings sheet = .error .noBlock ↔
        allBlank sheet = false ∧ ∀ p, p <+: solidLines sheet → p ≠ [] → ¬ Balanced p) ∧
      (convertStylesheet settings.policies sheet = .error .noBlock ↔
        allBlank sheet = false ∧ ∀ p, p <+: solidLines sheet → p ≠ [] → ¬ Balanced p) ∧
      ∀ c bs, componentOfStylesheet settings sheet = .ok c →
        convertStylesheet settings.policies sheet = .ok bs →
          ∃ b rest group, bs = b :: rest ∧
            c = ⟨componentName settings.defaultName sheet, b.classes, b.declarations⟩ ∧
            c.statistics.declarations = b.declarations.size ∧
            IsShortestBalanced group (solidLines sheet) ∧
            ∀ other, group <+: solidLines other →
              componentOfStylesheet settings other =
                  .ok ⟨componentName settings.defaultName other, b.classes, b.declarations⟩ ∧
                ∀ bs', convertStylesheet settings.policies other = .ok bs' →
                  ∃ rest', bs' = b :: rest' := by
  have hBlank := refusals_iff settings sheet .blank (by decide)
  have hNoBlock := refusals_iff settings sheet .noBlock (by decide)
  rw [requiredBlocks_eq_blank_iff] at hBlank
  rw [requiredBlocks_eq_noBlock_iff] at hNoBlock
  refine ⟨hBlank.1, hBlank.2, hNoBlock.1, hNoBlock.2, ?_⟩
  intro c bs hComponent hConverted
  obtain ⟨block, rest, hBlocks, -⟩ := componentOfStylesheet_eq_ok.1 hComponent
  obtain ⟨b, more, rfl, hFirst⟩ := convertBlock_of_convertStylesheet hBlocks hConverted
  obtain ⟨group, hShortest, hBlock⟩ := exists_blocks_eq_cons_iff.1 ⟨rest, hBlocks⟩
  have hSame := componentOfStylesheet_of_convertBlock hBlocks hFirst
  rw [hComponent, Except.ok.injEq] at hSame
  refine ⟨b, more, group, rfl, hSame, by rw [hSame]; rfl, hShortest, ?_⟩
  intro other hOther
  obtain ⟨rest', hBlocks'⟩ :=
    exists_blocks_eq_cons_iff.2 ⟨group, hShortest.of_prefix hOther, hBlock⟩
  refine ⟨componentOfStylesheet_of_convertBlock hBlocks' hFirst, ?_⟩
  intro bs' hConverted'
  obtain ⟨b', more', rfl, hFirst'⟩ := convertBlock_of_convertStylesheet hBlocks' hConverted'
  rw [hFirst, Except.ok.injEq] at hFirst'
  exact ⟨more', by rw [hFirst']⟩

end StyleScaffold
