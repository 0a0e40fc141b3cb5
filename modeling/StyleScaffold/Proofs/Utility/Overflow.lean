import StyleScaffold.Proofs.Except
import StyleScaffold.Proofs.Number.Binary64
import StyleScaffold.Proofs.Number.Numeral
import StyleScaffold.Proofs.OrderedMap
import StyleScaffold.Proofs.Text.Pieces
import StyleScaffold.Utility.Classes

/-!
# Lengths beyond the numbered scale

Only one thing can go wrong when declarations become classes. Under the scale policy the whole
part of a quarter of a length is taken, and a length that is too large for a finite number has
none. No other rule makes a whole number of a length, and a numeral never writes the number that
is none.

* `Numeral.value_cases`: which numerals are too large.
* `declarationClasses_eq_error_iff`: which declarations fail, and how.
* `classes_eq_error_iff`: so do the maps in which such a declaration stands.
* `not_overlong_of_length_le`: a length in a short value is never too large.
-/

namespace StyleScaffold

open Text

/-- The numeral writes a number that is too large for a finite one. -/
def Numeral.Overflows (n : Numeral) : Prop :=
  Binary64.overflowBound * 10 ^ (n.fraction.getD []).length ≤
    digitsValue (n.whole ++ n.fraction.getD [])

theorem Numeral.value_cases (n : Numeral) :
    n.Overflows ∧ n.value = .infinite false ∨
      ¬ n.Overflows ∧ ∃ units h, n.value = .finite false units h := by
  have hPos : 0 < 10 ^ (n.fraction.getD []).length := Nat.pow_pos (by decide)
  rw [Overflows, Nat.not_le]
  exact Binary64.ofRatio_cases false hPos

/-! ## Short numerals -/

/-- A numeral of a hundred digits is a long way below the largest finite number. -/
theorem Numeral.not_overflows {n : Numeral}
    (h : n.whole.length + (n.fraction.getD []).length ≤ 100) : ¬ n.Overflows := by
  have hDigits := digitsValue_lt (n.whole ++ n.fraction.getD [])
  have hBound : 10 ^ 100 ≤ Binary64.overflowBound := by
    unfold Binary64.overflowBound
    decide +kernel
  rw [Overflows, Nat.not_le]
  calc
    digitsValue (n.whole ++ n.fraction.getD []) < 10 ^ (n.whole ++ n.fraction.getD []).length :=
      hDigits
    _ ≤ 10 ^ 100 := Nat.pow_le_pow_right (by decide) (by rwa [List.length_append])
    _ ≤ Binary64.overflowBound := hBound
    _ ≤ Binary64.overflowBound * 10 ^ (n.fraction.getD []).length :=
      Nat.le_mul_of_pos_right _ (Nat.pow_pos (by decide))

theorem Numeral.length_le_of_read? {s rest : Text} {n : Numeral}
    (h : Numeral.read? s = some (n, rest)) :
    n.whole.length + (n.fraction.getD []).length ≤ s.length := by
  obtain ⟨-, ⟨hNone, rfl⟩ | ⟨part, hSome, -, rfl⟩⟩ := Numeral.exists_of_read? h
  · rw [hNone, Option.getD_none, List.length_nil, List.length_append]
    omega
  · rw [hSome, Option.getD_some]
    simp only [List.length_append, List.length_cons]
    omega

namespace Pixel

theorem length_le_of_first? {s : Text} {n : Numeral} (h : first? s = some n) :
    n.whole.length + (n.fraction.getD []).length ≤ s.length := by
  obtain ⟨front, back, rfl, hRead⟩ := exists_of_firstMatch h
  simp only [read?, Option.bind_eq_bind, Option.bind_eq_some_iff] at hRead
  obtain ⟨⟨m, rest⟩, hNumeral, hUnit⟩ := hRead
  split at hUnit
  · cases hUnit
    rw [List.length_append]
    exact Nat.le_trans (Numeral.length_le_of_read? hNumeral) (Nat.le_add_left _ _)
  · cases hUnit

/-- The class of a length on the scale is missing where the length is too large for a number. -/
theorem scaleClass_eq_error_iff {stem pixels : Text} {n : Numeral} {fault : NumberFault} :
    scaleClass stem pixels n.value = .error fault ↔ fault = .tooLarge ∧ n.Overflows := by
  rcases n.value_cases with ⟨hOver, hValue⟩ | ⟨hOver, units, h, hValue⟩
  · rw [hValue]
    simp [scaleClass, Binary64.dividedBy, Binary64.whole?, Binary64.truncate?, hOver,
      Functor.map, Except.map, eq_comm]
  · obtain ⟨part, hPart, hStep⟩ := Binary64.dividedBy_finite false h (k := 4) (by decide)
    rw [hValue, scaleClass, hStep]
    simp only [hOver, and_false, iff_false]
    split
    · simp
    · simp [Binary64.truncate?, Functor.map, Except.map]

end Pixel

namespace Utility

open Css

/-- The properties whose values are looked at as lengths. -/
def lengthProperties : List Text := ["padding", "margin", "gap", "border-radius"]

/-- The first length in the declaration's value is too large for a number, and the property
needs that number. -/
def Overlong (d : Text × Text) : Prop :=
  trim d.1 ∈ lengthProperties ∧ ∃ n, Pixel.first? d.2 = some n ∧ n.Overflows

/-- Whether the rule looks at the number of a length. -/
def Rule.takesLength : Rule → Bool
  | .spacing _ => true
  | .radius => true
  | _ => false

theorem takesLength_rules :
    ∀ row ∈ rules, row.2.takesLength = true ↔ row.1 ∈ lengthProperties := by
  decide

theorem lengthClasses_eq_error_iff {policy : SpacingPolicy} {stem value : Text}
    {ladderClass : Binary64 → Text} {fault : NumberFault} :
    lengthClasses policy stem ladderClass value = .error fault ↔
      fault = .tooLarge ∧ policy = .scale ∧ ∃ n, Pixel.first? value = some n ∧ n.Overflows := by
  unfold lengthClasses
  cases hFirst : Pixel.first? value with
  | none => simp
  | some n =>
    cases policy with
    | bucket => simp
    | scale => simp [map_eq_error, Pixel.scaleClass_eq_error_iff]

theorem Rule.classes_eq_error_iff {policies : Policies} {value : Text} {rule : Rule}
    {fault : NumberFault} :
    rule.classes policies value = .error fault ↔
      fault = .tooLarge ∧ policies.spacing = .scale ∧ rule.takesLength = true ∧
        ∃ n, Pixel.first? value = some n ∧ n.Overflows := by
  cases rule with
  | spacing stem => simp [Rule.classes, lengthClasses_eq_error_iff, Rule.takesLength]
  | radius => simp [Rule.classes, lengthClasses_eq_error_iff, Rule.takesLength]
  | border =>
    cases h : solidBorder? (trim value) <;> simp [Rule.classes, Rule.takesLength, h]
  | keyword _ => simp [Rule.classes, Rule.takesLength]
  | fontSize => simp [Rule.classes, Rule.takesLength]
  | fontWeight => simp [Rule.classes, Rule.takesLength]
  | color _ _ => simp [Rule.classes, Rule.takesLength]
  | size _ => simp [Rule.classes, Rule.takesLength]

theorem rule?_takesLength_iff {property : Text} :
    (∃ rule, rule? property = some rule ∧ rule.takesLength = true) ↔
      property ∈ lengthProperties := by
  constructor
  · rintro ⟨rule, hRule, hLength⟩
    exact (takesLength_rules _ (mem_of_lookup hRule)).1 hLength
  · intro hProperty
    have hAll : ∀ p ∈ lengthProperties, (rule? p).any Rule.takesLength = true := by decide
    exact (Option.any_eq_true _ _).1 (hAll property hProperty)

theorem declarationClasses_eq_error_iff {policies : Policies} {d : Text × Text}
    {fault : NumberFault} :
    declarationClasses policies d = .error fault ↔
      fault = .tooLarge ∧ policies.spacing = .scale ∧ Overlong d := by
  rw [Overlong, ← rule?_takesLength_iff, declarationClasses]
  cases hRule : rule? (trim d.1) with
  | none => simp
  | some rule => simp [Rule.classes_eq_error_iff]

theorem classesOfList_eq (policies : Policies) (ds : List (Text × Text)) :
    classesOfList policies ds = (ds.mapM (declarationClasses policies)).map List.flatten := by
  induction ds with
  | nil => rfl
  | cons d ds ih =>
    rw [classesOfList, List.mapM_cons, ih]
    cases declarationClasses policies d with
    | error fault => rfl
    | ok here =>
      cases ds.mapM (declarationClasses policies) with
      | error fault => rfl
      | ok more => rfl

/-- Declarations have no classes exactly under the scale policy and with an overlong length
among them. -/
theorem classes_eq_error_iff {policies : Policies} {ds : Declarations} {fault : NumberFault} :
    classes policies ds = .error fault ↔
      fault = .tooLarge ∧ policies.spacing = .scale ∧ ∃ d ∈ ds.entries, Overlong d := by
  have hCause : ∀ d e, declarationClasses policies d = .error e → e = .tooLarge :=
    fun d e h => (declarationClasses_eq_error_iff.1 h).1
  rw [classes, map_eq_error, classesOfList_eq, map_eq_error, mapM_eq_error_iff hCause]
  simp only [declarationClasses_eq_error_iff, true_and]
  constructor
  · rintro ⟨hFault, d, hd, hScale, hLong⟩
    exact ⟨hFault, hScale, d, hd, hLong⟩
  · rintro ⟨hFault, hScale, d, hd, hLong⟩
    exact ⟨hFault, d, hd, hScale, hLong⟩

theorem not_overlong_of_length_le {d : Text × Text} (h : d.2.length ≤ 100) : ¬ Overlong d := by
  rintro ⟨-, n, hFirst, hOverflows⟩
  have hLength := Pixel.length_le_of_first? hFirst
  exact Numeral.not_overflows (by omega) hOverflows

end Utility

end StyleScaffold
