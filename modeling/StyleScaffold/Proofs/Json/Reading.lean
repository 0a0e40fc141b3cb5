import StyleScaffold.Json.Access
import StyleScaffold.Proofs.Except
import StyleScaffold.Proofs.Number.Binary64

/-!
# What can be read out of a JSON value

Each reading of a value fails for values of some shapes. The shapes that it takes are described here
without it: numbers (`IsFloat`, `IsInteger`), fields with a number (`HasFloat`, `HasOptionalFloat`)
and fields with a map (`HasMap`).
-/

namespace StyleScaffold.Json

open Text

variable {v : Json} {fields : List (Text × Json)} {key : Text}

/-! ## Numbers -/

/-- Truth values and numbers, unless they are too large, and texts that write a number. -/
def IsFloat : Json → Prop
  | .bool _ | .float _ => True
  | .int n => n.natAbs < Binary64.overflowBound
  | .str s => (Literal.float? s).isSome
  | _ => False

/-- Truth values and finite numbers, and texts that write a whole number. -/
def IsInteger : Json → Prop
  | .bool _ | .int _ => True
  | .float x => ∃ negative units bounded, x = .finite negative units bounded
  | .str s => (Literal.integer? s).isSome
  | _ => False

theorem one_lt_overflowBound : 1 < Binary64.overflowBound := by
  have hSub : ∀ a b : Nat, 1 ≤ b → b < a → 1 < 2 ^ a - 2 ^ b := by
    intro a b hb hab
    have hTwo : 2 ^ 1 ≤ 2 ^ b := Nat.pow_le_pow_right Nat.two_pos hb
    have hPow : 2 ^ (b + 1) ≤ 2 ^ a := Nat.pow_le_pow_right Nat.two_pos hab
    rw [Nat.pow_succ] at hPow
    omega
  unfold Binary64.overflowBound
  exact hSub 1024 970 (by decide) (by decide)

theorem isFloat_zero : (Json.int 0).IsFloat := Nat.lt_trans Nat.one_pos one_lt_overflowBound

theorem isFloat_one : (Json.int 1).IsFloat := one_lt_overflowBound

theorem exists_ofInt?_iff {n : Int} :
    (∃ x, Binary64.ofInt? n = .ok x) ↔ n.natAbs < Binary64.overflowBound := by
  have hCases := @Binary64.ofRatio_cases (n < 0) n.natAbs 1 Nat.one_pos
  rw [Nat.mul_one] at hCases
  rw [Binary64.ofInt?]
  rcases hCases with ⟨hMore, hEq⟩ | ⟨hLess, units, bounded, hEq⟩
  · rw [hEq]
    refine iff_of_false ?_ (Nat.not_lt_of_le hMore)
    rintro ⟨x, hx⟩
    cases hx
  · rw [hEq]
    exact iff_of_true ⟨_, rfl⟩ hLess

theorem exists_truncate?_iff {x : Binary64} :
    (∃ n, x.truncate? = .ok n) ↔ ∃ negative units bounded, x = .finite negative units bounded := by
  cases x with
  | finite negative units bounded => exact iff_of_true ⟨_, rfl⟩ ⟨_, _, _, rfl⟩
  | infinite negative => simp [Binary64.truncate?]
  | nan => simp [Binary64.truncate?]

theorem exists_toFloat_iff : (∃ x, v.toFloat = .ok x) ↔ v.IsFloat := by
  cases v with
  | bool b => exact iff_of_true ⟨_, rfl⟩ trivial
  | float x => exact iff_of_true ⟨_, rfl⟩ trivial
  | int n => simp only [toFloat, mapError_eq_ok, exists_ofInt?_iff, IsFloat]
  | str s =>
    rw [toFloat, IsFloat]
    cases Literal.float? s <;> simp
  | null | arr | obj => simp [toFloat, IsFloat]

theorem exists_toInt_iff : (∃ n, v.toInt = .ok n) ↔ v.IsInteger := by
  cases v with
  | bool b => exact iff_of_true ⟨_, rfl⟩ trivial
  | int n => exact iff_of_true ⟨_, rfl⟩ trivial
  | float x => simp only [toInt, mapError_eq_ok, exists_truncate?_iff, IsInteger]
  | str s =>
    rw [toInt, IsInteger]
    cases Literal.integer? s <;> simp
  | null | arr | obj => simp [toInt, IsInteger]

/-- A literal never writes a number that has too many digits to be written. -/
theorem natAbs_lt_of_integer? {s : Text} {n : Int} (h : Literal.integer? s = some n) :
    n.natAbs < Literal.integerLimit := by
  obtain ⟨t, -, h⟩ := Option.bind_eq_some_iff.1 h
  dsimp only at h
  split at h
  · rename_i hDigits
    simp only [Bool.and_eq_true, decide_eq_true_eq] at hDigits
    cases h
    rw [Binary64.natAbs_signed]
    refine Nat.lt_of_lt_of_le (digitsValue_lt _) ?_
    unfold Literal.integerLimit
    exact Nat.pow_le_pow_right (by decide) hDigits.2
  · cases h

theorem one_lt_integerLimit : 1 < Literal.integerLimit := by
  unfold Literal.integerLimit
  exact Nat.one_lt_pow (by decide) (by decide)

theorem unitsLimit_le_integerLimit : Binary64.unitsLimit ≤ Literal.integerLimit := by
  have hPow : ∀ a b : Nat, a ≤ b → 2 ^ a ≤ 10 ^ b := fun a b hab =>
    Nat.le_trans (Nat.pow_le_pow_left (by decide) a) (Nat.pow_le_pow_right (by decide) hab)
  unfold Binary64.unitsLimit Literal.integerLimit
  exact hPow 2098 Literal.maxIntegerDigits (by decide)

theorem natAbs_lt_of_truncate? {x : Binary64} {n : Int} (h : x.truncate? = .ok n) :
    n.natAbs < Literal.integerLimit := by
  cases x with
  | finite negative units bounded =>
    cases h
    rw [Binary64.natAbs_signed]
    exact Nat.lt_of_le_of_lt (Nat.div_le_self _ _)
      (Nat.lt_of_lt_of_le bounded unitsLimit_le_integerLimit)
  | infinite negative => cases h
  | nan => cases h

/-! ## Objects -/

theorem fields?_eq_ok : v.fields? = .ok fields ↔ v = .obj fields := by
  cases v <;> simp [fields?]

/-- A value that is read as an object, and its fields further. -/
theorem exists_fields?_bind_iff {α : Type} {f : List (Text × Json) → Except DataFault α} :
    (∃ a, v.fields? >>= f = .ok a) ↔ ∃ fields, v = .obj fields ∧ ∃ a, f fields = .ok a := by
  simp only [exists_bind_eq_ok_iff, fields?_eq_ok]

/-- A number is in the field, if the field is there. -/
def HasFloat (fields : List (Text × Json)) (key : Text) : Prop :=
  ∀ v, lookup key fields = some v → v.IsFloat

/-- A number is in the field, if something other than null is. -/
def HasOptionalFloat (fields : List (Text × Json)) (key : Text) : Prop :=
  fieldOrNull fields key = .null ∨ (fieldOrNull fields key).IsFloat

theorem exists_fieldOr_toFloat_iff {n : Int} (hn : (Json.int n).IsFloat) :
    (∃ x, (fieldOr fields key (.int n)).toFloat = .ok x) ↔ HasFloat fields key := by
  rw [exists_toFloat_iff, fieldOr, HasFloat]
  cases lookup key fields with
  | none => exact iff_of_true hn fun _ h => nomatch h
  | some v => simp

/-! ## Maps -/

/-- A key and a value: an array of two items, a text of two characters or an object with two
fields. -/
def IsPair (v : Json) : Prop := ∃ k x, v.parts = .ok [k, x] ∧ k.key?.isSome

/-- The fields of an object, or an array of pairs, if the field holds anything. -/
def HasMap (fields : List (Text × Json)) (key : Text) : Prop :=
  (fieldOrNull fields key).truthy = true →
    (∃ inner, fieldOrNull fields key = .obj inner) ∨
      ∃ items, fieldOrNull fields key = .arr items ∧ ∀ v ∈ items, v.IsPair

theorem exists_toKey_iff : (∃ k, v.toKey = .ok k) ↔ v.key?.isSome := by
  rw [toKey]
  cases v.key? <;> simp

theorem exists_toPair_iff : (∃ p, v.toPair = .ok p) ↔ v.IsPair := by
  constructor
  · rintro ⟨p, h⟩
    obtain ⟨ps, hParts, h⟩ := bind_eq_ok.1 h
    split at h
    · rename_i k x
      obtain ⟨key, hKey, -⟩ := bind_eq_ok.1 h
      exact ⟨k, x, hParts, exists_toKey_iff.1 ⟨key, hKey⟩⟩
    · cases h
  · rintro ⟨k, x, hParts, hKey⟩
    obtain ⟨key, hKey⟩ := exists_toKey_iff.2 hKey
    exact ⟨(key, x), bind_eq_ok.2 ⟨[k, x], hParts, bind_eq_ok.2 ⟨key, hKey, rfl⟩⟩⟩

theorem not_isPair_character (c : CodePoint) : ¬ (Json.str [c]).IsPair := by
  rintro ⟨k, x, hParts, -⟩
  cases hParts

/-- The parts of a text are no pairs. -/
theorem exists_toMap_iff (h : v.truthy = true) :
    (∃ m, v.toMap = .ok m) ↔
      (∃ inner, v = .obj inner) ∨ ∃ items, v = .arr items ∧ ∀ w ∈ items, w.IsPair := by
  cases v with
  | obj inner => exact iff_of_true ⟨_, rfl⟩ (Or.inl ⟨inner, rfl⟩)
  | arr items =>
    have hPairs : (∃ m, (Json.arr items).toMap = .ok m) ↔ ∃ ps, items.mapM toPair = .ok ps :=
      (exists_bind_iff fun _ => exists_pure_iff).trans (and_iff_left trivial)
    simp only [hPairs, exists_mapM_eq_ok_iff, exists_toPair_iff]
    simp
  | str s =>
    obtain ⟨c, s, rfl⟩ := List.exists_cons_of_ne_nil (show s ≠ [] by simpa [truthy] using h)
    refine iff_of_false ?_ (by simp)
    rintro ⟨m, hMap⟩
    obtain ⟨parts, hParts, hMap⟩ := bind_eq_ok.1 hMap
    obtain ⟨ps, hPairs, -⟩ := bind_eq_ok.1 hMap
    cases hParts
    have hFirst := exists_mapM_eq_ok_iff.1 ⟨ps, hPairs⟩ (Json.str [c]) (by simp)
    exact not_isPair_character c (exists_toPair_iff.1 hFirst)
  | null | bool | int | float =>
    refine iff_of_false ?_ (by simp)
    rintro ⟨m, hMap⟩
    cases hMap

end StyleScaffold.Json
