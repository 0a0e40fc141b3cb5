import StyleScaffold.Proofs.Css.SolidLines

/-!
# The blocks of a stylesheet as a factorization of its lines

The scan for the end of a group carries how many braces are open in front of a line and whether
one was opened. Both are facts about the lines passed since the group began, whatever the order
of the braces in them (`completes_cons`), so the scan stops at the first group of lines that
`Completes` what was carried (`completeGroup_eq_none`, `length_le_of_completeGroup`).

* `firstGroup_eq_some_iff`, `firstGroup_eq_none_iff`: the first group is the shortest non-empty
  prefix with its braces in balance, if there is one.
* `Factorization.unique`, `exists_factorization_groups`: every list of lines has exactly one
  factorization into such prefixes with a rest that has none, and `groups` finds it.
* `blocks_unique_factorization`: the same for the blocks of a text, with what follows for the
  braces in a block and for the lines that the blocks hold.
-/

namespace StyleScaffold.Css

open Text

/-- A brace is opened in the lines, and as many are closed as opened. -/
structure Balanced (group : List Text) : Prop where
  opens : ('{' : CodePoint) ∈ group.flatten
  closes : group.flatten.count ('{' : CodePoint) = group.flatten.count ('}' : CodePoint)

/-- The lines with which `lines` begins, as few as possible but not none, that are balanced. -/
structure IsShortestBalanced (group lines : List Text) : Prop where
  isPrefix : group <+: lines
  ne_nil : group ≠ []
  balanced : Balanced group
  least : ∀ p, p <+: lines → p ≠ [] → Balanced p → group.length ≤ p.length

/-- The groups are cut off the lines one after another, each as the shortest balanced prefix of
what is left, until `left` has none. -/
inductive Factorization : List Text → List (List Text) → List Text → Prop where
  | done {left : List Text} (none : ∀ p, p <+: left → p ≠ [] → ¬ Balanced p) :
      Factorization left [] left
  | group {lines group rest left : List Text} {groups : List (List Text)}
      (append : lines = group ++ rest) (shortest : IsShortestBalanced group lines)
      (more : Factorization rest groups left) : Factorization lines (group :: groups) left

theorem Balanced.ne_nil {group : List Text} (h : Balanced group) : group ≠ [] := by
  rintro rfl
  cases h.opens

/-! ## What the scan carries -/

/-- The group closes `balance` braces besides its own, and a brace is opened in it unless one
was before. -/
def Completes (balance : Int) (opened : Bool) (group : List Text) : Prop :=
  balance + braceBalance group.flatten = 0 ∧ (opened || group.any (·.contains '{')) = true

/-- A line moves from the group into what the scan carries. -/
theorem completes_cons {balance : Int} {opened : Bool} {line : Text} {group : List Text} :
    Completes balance opened (line :: group) ↔
      Completes (balance + braceBalance line) (opened || line.contains '{') group := by
  unfold Completes
  rw [List.flatten_cons, braceBalance_append, List.any_cons, Bool.or_assoc, Int.add_assoc]

/-- With nothing carried, a group is completed exactly when it is balanced. -/
theorem completes_iff_balanced {group : List Text} : Completes 0 false group ↔ Balanced group := by
  have hAny : group.any (·.contains '{') = true ↔ ('{' : CodePoint) ∈ group.flatten := by
    simp only [List.any_eq_true, List.contains_iff_mem, List.mem_flatten]
  unfold Completes
  rw [Bool.false_or, hAny, braceBalance]
  constructor
  · rintro ⟨hSum, hOpen⟩
    exact ⟨hOpen, by omega⟩
  · intro h
    have := h.closes
    exact ⟨by omega, h.opens⟩

/-- Where the scan finds no group, no prefix completes what it carries. -/
theorem completeGroup_eq_none {balance : Int} {opened : Bool} {lines : List Text}
    (h : completeGroup balance opened lines = none) :
    ∀ p, p <+: lines → p ≠ [] → ¬ Completes balance opened p := by
  induction lines generalizing balance opened with
  | nil =>
    intro p hPrefix hne
    exact absurd (List.prefix_nil.1 hPrefix) hne
  | cons line rest ih =>
    unfold completeGroup at h
    split at h
    · cases h
    · rename_i hStop
      rw [Option.map_eq_none_iff] at h
      intro p hPrefix hne hCompletes
      rcases List.prefix_cons_iff.1 hPrefix with rfl | ⟨q, rfl, hq⟩
      · exact hne rfl
      · rw [completes_cons] at hCompletes
        by_cases hNil : q = []
        · subst hNil
          exact hStop (by simpa [Completes] using hCompletes)
        · exact ih h q hq hNil hCompletes

/-- Where the scan finds a group, no shorter prefix completes what it carries. -/
theorem length_le_of_completeGroup {balance : Int} {opened : Bool}
    {lines group rest : List Text} (h : completeGroup balance opened lines = some (group, rest)) :
    ∀ p, p <+: lines → p ≠ [] → Completes balance opened p → group.length ≤ p.length := by
  induction lines generalizing balance opened group with
  | nil => simp [completeGroup] at h
  | cons line more ih =>
    intro p hPrefix hne hCompletes
    rcases List.prefix_cons_iff.1 hPrefix with rfl | ⟨q, rfl, hq⟩
    · exact absurd rfl hne
    unfold completeGroup at h
    split at h
    · simp only [Option.some.injEq, Prod.mk.injEq] at h
      rw [← h.1]
      simp
    · rename_i hStop
      rw [Option.map_eq_some_iff] at h
      obtain ⟨⟨g, r⟩, hFound, hEq⟩ := h
      simp only [Prod.mk.injEq] at hEq
      obtain ⟨rfl, rfl⟩ := hEq
      rw [completes_cons] at hCompletes
      by_cases hNil : q = []
      · subst hNil
        exact absurd (by simpa [Completes] using hCompletes) hStop
      · have := ih hFound q hq hNil hCompletes
        simpa using this

/-! ## The first group -/

theorem IsShortestBalanced.unique {group other lines : List Text}
    (h : IsShortestBalanced group lines) (h' : IsShortestBalanced other lines) : group = other := by
  have hLe := h.least other h'.isPrefix h'.ne_nil h'.balanced
  have hGe := h'.least group h.isPrefix h.ne_nil h.balanced
  exact (List.prefix_of_prefix_length_le h.isPrefix h'.isPrefix hLe).eq_of_length_le hGe

/-- The first group is cut off before the lines behind it are looked at. -/
theorem IsShortestBalanced.of_prefix {group lines others : List Text}
    (h : IsShortestBalanced group lines) (hOthers : group <+: others) :
    IsShortestBalanced group others := by
  refine ⟨hOthers, h.ne_nil, h.balanced, ?_⟩
  intro p hPrefix hne hBalanced
  by_cases hLength : group.length ≤ p.length
  · exact hLength
  · have hShort : p <+: group := List.prefix_of_prefix_length_le hPrefix hOthers (by omega)
    exact h.least p (hShort.trans h.isPrefix) hne hBalanced

theorem firstGroup_eq_none_iff {lines : List Text} :
    firstGroup lines = none ↔ ∀ p, p <+: lines → p ≠ [] → ¬ Balanced p := by
  constructor
  · intro h p hPrefix hne hBalanced
    exact completeGroup_eq_none h p hPrefix hne (completes_iff_balanced.2 hBalanced)
  · intro h
    cases hFound : firstGroup lines with
    | none => rfl
    | some found =>
      obtain ⟨group, rest⟩ := found
      obtain ⟨hAppend, hne⟩ := append_of_completeGroup hFound
      exact absurd (completes_iff_balanced.1 (balance_of_completeGroup hFound))
        (h group ⟨rest, hAppend.symm⟩ hne)

theorem firstGroup_eq_some_iff {lines group rest : List Text} :
    firstGroup lines = some (group, rest) ↔
      lines = group ++ rest ∧ IsShortestBalanced group lines := by
  have sound : ∀ {group rest}, firstGroup lines = some (group, rest) →
      lines = group ++ rest ∧ IsShortestBalanced group lines := by
    intro group rest h
    obtain ⟨hAppend, hne⟩ := append_of_completeGroup h
    refine ⟨hAppend, ⟨rest, hAppend.symm⟩, hne,
      completes_iff_balanced.1 (balance_of_completeGroup h), ?_⟩
    intro p hPrefix hNil hBalanced
    exact length_le_of_completeGroup h p hPrefix hNil (completes_iff_balanced.2 hBalanced)
  constructor
  · exact sound
  · rintro ⟨hAppend, hShortest⟩
    cases hFound : firstGroup lines with
    | none =>
      exact absurd hShortest.balanced
        (firstGroup_eq_none_iff.1 hFound group hShortest.isPrefix hShortest.ne_nil)
    | some found =>
      obtain ⟨other, rest'⟩ := found
      obtain ⟨hAppend', hShortest'⟩ := sound hFound
      obtain rfl := hShortest.unique hShortest'
      rw [hAppend, List.append_cancel_left_eq] at hAppend'
      rw [hAppend']

/-! ## The groups -/

theorem Factorization.append_eq {lines left : List Text} {gs : List (List Text)}
    (h : Factorization lines gs left) : lines = gs.flatten ++ left := by
  induction h with
  | done _ => rfl
  | group append _ _ ih => rw [append, List.flatten_cons, List.append_assoc, ← ih]

theorem Factorization.balanced {lines left : List Text} {gs : List (List Text)}
    (h : Factorization lines gs left) : ∀ group ∈ gs, Balanced group := by
  induction h with
  | done _ => simp
  | group _ shortest _ ih =>
    intro group hMem
    rcases List.mem_cons.1 hMem with rfl | hMem
    · exact shortest.balanced
    · exact ih group hMem

/-- What is left cannot be cut any further. -/
theorem Factorization.not_balanced_left {lines left : List Text} {gs : List (List Text)}
    (h : Factorization lines gs left) : ∀ p, p <+: left → p ≠ [] → ¬ Balanced p := by
  induction h with
  | done none => exact none
  | group _ _ _ ih => exact ih

/-- Lines have one factorization at most. -/
theorem Factorization.unique {lines left left' : List Text} {gs gs' : List (List Text)}
    (h : Factorization lines gs left) (h' : Factorization lines gs' left') :
    gs' = gs ∧ left' = left := by
  induction h generalizing gs' left' with
  | done none =>
    cases h' with
    | done _ => exact ⟨rfl, rfl⟩
    | group _ shortest _ =>
      exact absurd shortest.balanced (none _ shortest.isPrefix shortest.ne_nil)
  | group append shortest _ ih =>
    cases h' with
    | done none => exact absurd shortest.balanced (none _ shortest.isPrefix shortest.ne_nil)
    | group append' shortest' more' =>
      obtain rfl := shortest.unique shortest'
      rw [append, List.append_cancel_left_eq] at append'
      subst append'
      obtain ⟨rfl, rfl⟩ := ih more'
      exact ⟨rfl, rfl⟩

/-- The groups of lines are those of a factorization. -/
theorem exists_factorization_groups (lines : List Text) :
    ∃ left, Factorization lines (groups lines) left := by
  fun_induction groups lines with
  | case1 lines hFound =>
    exact ⟨lines, .done (firstGroup_eq_none_iff.1 hFound)⟩
  | case2 lines group rest hFound ih =>
    obtain ⟨left, hMore⟩ := ih
    obtain ⟨hAppend, hShortest⟩ := firstGroup_eq_some_iff.1 hFound
    exact ⟨left, .group hAppend hShortest hMore⟩

theorem Factorization.groups_eq {lines left : List Text} {gs : List (List Text)}
    (h : Factorization lines gs left) : groups lines = gs := by
  obtain ⟨left', h'⟩ := exists_factorization_groups lines
  exact (h.unique h').1

/-- Groups at the front are cut off first, and the further groups off what is left then. -/
theorem Factorization.exists_append {lines left : List Text} {gs gs' : List (List Text)}
    (h : Factorization lines (gs ++ gs') left) :
    ∃ rest, lines = gs.flatten ++ rest ∧ Factorization rest gs' left := by
  induction gs generalizing lines with
  | nil => exact ⟨lines, rfl, h⟩
  | cons group more ih =>
    cases h with
    | @group _ _ rest _ _ append _ hMore =>
      obtain ⟨rest', hRest, hLast⟩ := ih hMore
      exact ⟨rest', by rw [append, hRest, List.flatten_cons, List.append_assoc], hLast⟩

/-! ## The blocks -/

theorem blocks_eq_nil_iff {sheet : Text} :
    blocks sheet = [] ↔ ∀ p, p <+: solidLines sheet → p ≠ [] → ¬ Balanced p := by
  obtain ⟨left, hFactor⟩ := exists_factorization_groups (solidLines sheet)
  rw [blocks, List.map_eq_nil_iff]
  constructor
  · intro hNil
    rw [hNil] at hFactor
    cases hFactor with
    | done none => exact none
  · intro hNone
    exact Factorization.groups_eq (.done hNone)

/-- The solid lines of a text have exactly one factorization into shortest balanced prefixes and
a rest without any. The blocks are its groups, in order, each joined and trimmed. So every block
opens a brace and closes as many as it opens, and the blocks hold all solid lines but those of
the rest, each once. -/
theorem blocks_unique_factorization (sheet : Text) :
    ∃ gs left, Factorization (solidLines sheet) gs left ∧
      (∀ gs' left', Factorization (solidLines sheet) gs' left' → gs' = gs ∧ left' = left) ∧
      solidLines sheet = gs.flatten ++ left ∧
      blocks sheet = gs.map (fun group => trim (join ['\n'] group)) ∧
      (∀ block ∈ blocks sheet, ('{' : CodePoint) ∈ block ∧
        block.count ('{' : CodePoint) = block.count ('}' : CodePoint)) ∧
      (solidLines sheet).map trim =
        ((blocks sheet).flatMap fun block => (solidLines block).map trim) ++ left.map trim := by
  obtain ⟨left, hFactor⟩ := exists_factorization_groups (solidLines sheet)
  refine ⟨groups (solidLines sheet), left, hFactor, fun _ _ h => hFactor.unique h,
    hFactor.append_eq, rfl, ?_, ?_⟩
  · intro block hBlock
    obtain ⟨group, hGroup, rfl⟩ := List.mem_map.1 hBlock
    have hBalanced := hFactor.balanced group hGroup
    have hOpen := List.count_pos_iff.2 hBalanced.opens
    rw [← count_blockOfLines (by decide)] at hOpen
    refine ⟨List.count_pos_iff.1 hOpen, ?_⟩
    rw [count_blockOfLines (by decide), count_blockOfLines (by decide), hBalanced.closes]
  · have hGroups : ∀ group ∈ groups (solidLines sheet),
        (solidLines (blockOfLines group)).map trim = group.map trim := by
      intro group hGroup
      apply map_trim_solidLines_blockOfLines
      intro line hLine
      have hMem : line ∈ solidLines sheet := by
        rw [hFactor.append_eq]
        exact List.mem_append_left _ (List.mem_flatten.2 ⟨group, hGroup, hLine⟩)
      exact ⟨oneLine_of_mem_solidLines hMem, solid_of_mem_solidLines hMem⟩
    calc
      (solidLines sheet).map trim
          = ((groups (solidLines sheet)).map (List.map trim)).flatten ++ left.map trim := by
        rw [← List.map_flatten, ← List.map_append, ← hFactor.append_eq]
      _ = _ := by
        rw [blocks, List.flatMap_def, List.map_map]
        congr 2
        exact List.map_congr_left fun group hGroup => (hGroups group hGroup).symm

end StyleScaffold.Css
