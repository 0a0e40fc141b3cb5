import StyleScaffold.Proofs.Stylesheet
import StyleScaffold.Proofs.Utility.Overflow

/-!
# When a stylesheet is not converted

A conversion refuses a blank text and a text without a block. Beyond that it fails in one case:
under the scale policy, where a length in a block that it converts is too large for a number.

* `convertStylesheet_eq_error_iff`, `componentOfStylesheet_eq_error_iff`: each failure with its
  cause. The two conversions differ in the blocks they look at, not in their refusals.
* `declared_conversions_iff`: so they keep to the two refusals exactly where no such length is.
* `not_declared_conversions`: a padding of four hundred nines is such a length.
-/

namespace StyleScaffold

open Text Css

/-- A length in the block is too large for the scale that the policies ask for. -/
def BlockOverflows (policies : Policies) (block : Text) : Prop :=
  policies.spacing = .scale ∧ ∃ d ∈ (declarations block).entries, Utility.Overlong d

/-- The conversion gives a result, or it refuses the stylesheet as blank or as one without a
block. -/
def IsDeclared {α : Type} (outcome : Except StylesheetFault α) : Prop :=
  (∃ a, outcome = .ok a) ∨ outcome = .error .blank ∨ outcome = .error .noBlock

theorem isDeclared_iff {α : Type} {outcome : Except StylesheetFault α} :
    IsDeclared outcome ↔ ∀ fault, outcome ≠ .error (.number fault) := by
  unfold IsDeclared
  cases outcome with
  | ok a =>
    refine iff_of_true (Or.inl ⟨a, rfl⟩) ?_
    intro fault hEq
    cases hEq
  | error fault =>
    cases fault with
    | blank =>
      refine iff_of_true (Or.inr (Or.inl rfl)) ?_
      intro fault hEq
      cases hEq
    | noBlock =>
      refine iff_of_true (Or.inr (Or.inr rfl)) ?_
      intro fault hEq
      cases hEq
    | number fault =>
      refine iff_of_false ?_ fun h => h fault rfl
      rintro (⟨a, hEq⟩ | hEq | hEq)
      all_goals cases hEq

/-! ## Failures with their causes -/

theorem requiredBlocks_eq_error_iff {sheet : Text} {fault : StylesheetFault} :
    requiredBlocks sheet = .error fault ↔
      fault = .blank ∧ allBlank sheet = true ∨
        fault = .noBlock ∧ allBlank sheet = false ∧ blocks sheet = [] := by
  unfold requiredBlocks
  by_cases hBlank : allBlank sheet = true
  · simp [hBlank, @eq_comm _ fault]
  by_cases hBlocks : blocks sheet = []
  · simp [hBlank, hBlocks, @eq_comm _ fault]
  · simp [hBlank, hBlocks]

theorem convertBlock_eq_error_iff {policies : Policies} {block : Text} {fault : StylesheetFault} :
    convertBlock policies block = .error fault ↔
      fault = .number .tooLarge ∧ BlockOverflows policies block := by
  have hClasses : convertBlock policies block = .error fault ↔
      ∃ cause, Utility.classes policies (declarations block) = .error cause ∧
        StylesheetFault.number cause = fault := by
    rw [convertBlock, bind_eq_error, mapError_eq_error]
    simp [pure, Except.pure]
  rw [hClasses, BlockOverflows]
  constructor
  · rintro ⟨cause, hCause, rfl⟩
    obtain ⟨rfl, hOverflow⟩ := Utility.classes_eq_error_iff.1 hCause
    exact ⟨rfl, hOverflow⟩
  · rintro ⟨rfl, hOverflow⟩
    exact ⟨.tooLarge, Utility.classes_eq_error_iff.2 ⟨rfl, hOverflow⟩, rfl⟩

theorem convertStylesheet_eq_error_iff {policies : Policies} {sheet : Text}
    {fault : StylesheetFault} :
    convertStylesheet policies sheet = .error fault ↔
      requiredBlocks sheet = .error fault ∨
        fault = .number .tooLarge ∧ ∃ block ∈ blocks sheet, BlockOverflows policies block := by
  have hCause : ∀ block e, convertBlock policies block = .error e → e = .number .tooLarge :=
    fun block e h => (convertBlock_eq_error_iff.1 h).1
  rw [convertStylesheet, bind_eq_error]
  simp only [mapM_eq_error_iff hCause, convertBlock_eq_error_iff, true_and, requiredBlocks_eq_ok]
  refine or_congr_right ⟨?_, ?_⟩
  · rintro ⟨_, ⟨rfl, -⟩, hFault, block, hBlock, hOverflow⟩
    exact ⟨hFault, block, hBlock, hOverflow⟩
  · rintro ⟨hFault, block, hBlock, hOverflow⟩
    exact ⟨_, ⟨rfl, List.ne_nil_of_mem hBlock⟩, hFault, block, hBlock, hOverflow⟩

theorem componentOfStylesheet_eq_error_iff {settings : ConversionSettings} {sheet : Text}
    {fault : StylesheetFault} :
    componentOfStylesheet settings sheet = .error fault ↔
      requiredBlocks sheet = .error fault ∨
        fault = .number .tooLarge ∧
          ∃ block ∈ (blocks sheet).head?, BlockOverflows settings.policies block := by
  simp only [componentOfStylesheet, bind_eq_error, convertBlock_eq_error_iff, requiredBlocks_eq_ok,
    pure, Except.pure, reduceCtorEq, and_false, exists_false, or_false]
  refine or_congr_right ⟨?_, ?_⟩
  · rintro ⟨bs, ⟨hBlocks, hne⟩, hFault, hOverflow⟩
    obtain ⟨block, rest, rfl⟩ := List.exists_cons_of_ne_nil hne
    exact ⟨hFault, block, by simp [hBlocks], hOverflow⟩
  · rintro ⟨hFault, block, hBlock, hOverflow⟩
    obtain ⟨rest, hBlocks⟩ := List.head?_eq_some_iff.1 hBlock
    exact ⟨_, ⟨hBlocks, by simp⟩, hFault, hOverflow⟩

theorem requiredBlocks_ne_number (sheet : Text) (fault : NumberFault) :
    requiredBlocks sheet ≠ .error (.number fault) := by
  rw [ne_eq, requiredBlocks_eq_error_iff]
  simp

/-! ## Conversions without another failure -/

/-- Both conversions, and the classes of any declarations, keep to the declared refusals exactly
where no length is too large for the scale. -/
theorem declared_conversions_iff (settings : ConversionSettings) (sheet : Text)
    (ds : Declarations) :
    (IsDeclared (componentOfStylesheet settings sheet) ↔
        ¬ ∃ block ∈ (blocks sheet).head?, BlockOverflows settings.policies block) ∧
      (IsDeclared (convertStylesheet settings.policies sheet) ↔
        ¬ ∃ block ∈ blocks sheet, BlockOverflows settings.policies block) ∧
      ((∃ names, Utility.classes settings.policies ds = .ok names) ↔
        ¬ (settings.policies.spacing = .scale ∧ ∃ d ∈ ds.entries, Utility.Overlong d)) := by
  refine ⟨?_, ?_, ?_⟩
  · simp [isDeclared_iff, componentOfStylesheet_eq_error_iff, requiredBlocks_ne_number]
  · simp [isDeclared_iff, convertStylesheet_eq_error_iff, requiredBlocks_ne_number]
  · have hFault : ∀ fault, Utility.classes settings.policies ds = .error fault ↔ _ :=
      fun fault => Utility.classes_eq_error_iff
    cases hClasses : Utility.classes settings.policies ds with
    | error fault =>
      have hOverflow := (hFault fault).1 hClasses
      refine iff_of_false ?_ (not_not_intro hOverflow.2)
      rintro ⟨names, hEq⟩
      cases hEq
    | ok names =>
      refine iff_of_true ⟨names, rfl⟩ ?_
      intro hOverflow
      have hError := (hFault .tooLarge).2 ⟨rfl, hOverflow⟩
      rw [hClasses] at hError
      cases hError

/-- Four hundred nines. -/
def longNumeral : Numeral := ⟨copies 400 '9', none⟩

def longPadding : Text × Text := ("padding", longNumeral.whole ++ "px")

def longRule : Text := ruleText ".a" (declarationsText [] (.ofList [longPadding]))

/-- Under the scale policy, neither conversion of a rule with that padding keeps to the declared
refusals, and the declaration alone has no classes either. -/
theorem not_declared_conversions :
    let policies : Policies := { spacing := .scale }
    ¬ IsDeclared (componentOfStylesheet { policies := policies } longRule) ∧
      ¬ IsDeclared (convertStylesheet policies longRule) ∧
      Utility.classes policies (.ofList [longPadding]) = .error .tooLarge := by
  intro policies
  have hBlocks : blocks longRule = [longRule] := by decide +kernel
  have hRead : declarations longRule = .ofList [longPadding] :=
    OrderedMap.ext (by decide +kernel)
  have hFirst : Pixel.first? longPadding.2 = some longNumeral := by decide +kernel
  have hOverflows : longNumeral.Overflows := by
    unfold Numeral.Overflows Binary64.overflowBound
    decide +kernel
  have hLong : Utility.Overlong longPadding := ⟨by decide, longNumeral, hFirst, hOverflows⟩
  have hBlock : BlockOverflows policies longRule := by
    refine ⟨rfl, longPadding, ?_, hLong⟩
    rw [hRead]
    exact List.mem_singleton_self longPadding
  refine ⟨?_, ?_, ?_⟩
  · intro hDeclared
    refine isDeclared_iff.1 hDeclared .tooLarge (componentOfStylesheet_eq_error_iff.2 (Or.inr ?_))
    exact ⟨rfl, longRule, by rw [hBlocks]; rfl, hBlock⟩
  · intro hDeclared
    refine isDeclared_iff.1 hDeclared .tooLarge (convertStylesheet_eq_error_iff.2 (Or.inr ?_))
    exact ⟨rfl, longRule, by rw [hBlocks]; exact List.mem_singleton_self longRule, hBlock⟩
  · exact Utility.classes_eq_error_iff.2
      ⟨rfl, rfl, longPadding, List.mem_singleton_self longPadding, hLong⟩

end StyleScaffold
