import StyleScaffold.Proofs.Number.Monotone
import StyleScaffold.Proofs.Utility.PixelLength

/-!
# Lengths on a ladder

A length takes the label of the first step of a ladder that its floating-point number does not
exceed. The number is rounded, and beyond the range of finite numbers it is infinite. For a numeral
that writes a whole number this makes no difference, however many digits it has: rounding keeps the
order, and neither a threshold nor its successor is rounded (`Numeral.atMost_value`).

* `Ladder.isLabelOf_wholeLabel`: the label is that of the smallest threshold that is large enough.
* `Ladder.idxOf_wholeLabel`: its place on the ladder is the number of steps that are too low, and so
  it does not go down when the number goes up (`Ladder.rung_le_rung`).
* `classes_bucket_mono`: both for the classes of two lengths.
-/

namespace StyleScaffold

open Text

/-! ## Ladders -/

namespace Ladder

/-- The labels from the lowest to the highest. -/
def labels (ladder : Ladder) : List Text := ladder.steps.map Prod.snd ++ [ladder.largest]

/-- The thresholds ascend and are exact in floating-point numbers, and no label stands on the ladder
twice. -/
structure IsProper (ladder : Ladder) : Prop where
  ascending : ladder.steps.Pairwise fun a b => a.1 < b.1
  exact_steps : ∀ step ∈ ladder.steps, step.1 + 1 < 2 ^ 53
  nodup_labels : ladder.labels.Nodup

/-- The label belongs to the smallest threshold that is at least the number, or it is the largest
label and all thresholds are below the number. -/
def IsLabelOf (ladder : Ladder) (n : Nat) (label : Text) : Prop :=
  (∃ threshold, (threshold, label) ∈ ladder.steps ∧ n ≤ threshold ∧
      ∀ step ∈ ladder.steps, n ≤ step.1 → threshold ≤ step.1) ∨
    (∀ step ∈ ladder.steps, step.1 < n) ∧ label = ladder.largest

/-- The label of a whole number. -/
def wholeLabel (ladder : Ladder) (n : Nat) : Text :=
  ((ladder.steps.find? fun step => n ≤ step.1).map Prod.snd).getD ladder.largest

/-- How many steps in a row from the lowest on are below the number. -/
def rung (ladder : Ladder) (n : Nat) : Nat := ladder.steps.findIdx fun step => n ≤ step.1

/-- The ladder with every label changed. -/
def map (f : Text → Text) (ladder : Ladder) : Ladder where
  steps := ladder.steps.map (Prod.map id f)
  largest := f ladder.largest

variable {ladder : Ladder} {m n : Nat}

theorem label_map (f : Text → Text) (ladder : Ladder) (x : Binary64) :
    (ladder.map f).label x = f (ladder.label x) := by
  unfold label map
  have hFind : (ladder.steps.map (Prod.map id f)).find? (fun step => x.atMost step.1) =
      (ladder.steps.find? fun step => x.atMost step.1).map (Prod.map id f) := List.find?_map
  simp only [hFind]
  cases ladder.steps.find? fun step => x.atMost step.1 <;> rfl

/-- A number that is at most the same thresholds as a whole number has the label of that. -/
theorem label_eq_wholeLabel {x : Binary64}
    (h : ∀ step ∈ ladder.steps, x.atMost step.1 = decide (n ≤ step.1)) :
    ladder.label x = ladder.wholeLabel n := by
  have hFind : ∀ steps : List (Nat × Text),
      (∀ step ∈ steps, x.atMost step.1 = decide (n ≤ step.1)) →
        (steps.find? fun step => x.atMost step.1) = steps.find? fun step => n ≤ step.1 := by
    intro steps hSteps
    induction steps with
    | nil => rfl
    | cons step rest ih =>
      rw [List.forall_mem_cons] at hSteps
      rw [List.find?_cons, List.find?_cons, hSteps.1, ih hSteps.2]
  unfold label wholeLabel
  rw [hFind ladder.steps h]
  cases ladder.steps.find? fun step => n ≤ step.1 <;> rfl

theorem isLabelOf_wholeLabel (h : ladder.steps.Pairwise fun a b => a.1 < b.1) (n : Nat) :
    ladder.IsLabelOf n (ladder.wholeLabel n) := by
  unfold wholeLabel
  cases hFind : ladder.steps.find? fun step => n ≤ step.1 with
  | none =>
    refine Or.inr ⟨fun step hStep => ?_, rfl⟩
    simpa using List.find?_eq_none.1 hFind step hStep
  | some step =>
    obtain ⟨threshold, label⟩ := step
    obtain ⟨hLarge, front, back, hSteps, hFront⟩ := List.find?_eq_some_iff_append.1 hFind
    refine Or.inl ⟨threshold, ?_, by simpa using hLarge, ?_⟩
    · rw [hSteps]
      exact List.mem_append_right front List.mem_cons_self
    · intro other hOther hEnough
      rw [hSteps] at h hOther
      rcases List.mem_append.1 hOther with hBefore | hBehind
      · -- the steps in front are too low
        have hLow := hFront other hBefore
        simp only [Bool.not_eq_true', decide_eq_false_iff_not] at hLow
        exact absurd hEnough hLow
      · rcases List.mem_cons.1 hBehind with rfl | hLater
        · exact Nat.le_refl _
        · have hRest := (List.pairwise_append.1 h).2.1
          exact Nat.le_of_lt ((List.pairwise_cons.1 hRest).1 other hLater)

/-! ## Places on a ladder -/

theorem rung_le_rung (ladder : Ladder) (h : m ≤ n) : ladder.rung m ≤ ladder.rung n := by
  apply List.findIdx_le_findIdx
  intro step _ hStep
  simp only [decide_eq_true_eq] at hStep ⊢
  exact Nat.le_trans h hStep

theorem getElem?_rung (ladder : Ladder) (n : Nat) :
    ladder.labels[ladder.rung n]? = some (ladder.wholeLabel n) := by
  unfold wholeLabel
  rw [List.find?_eq_getElem?_findIdx, ← rung, labels]
  have hRung : ladder.rung n ≤ ladder.steps.length := List.findIdx_le_length
  rcases Nat.lt_or_eq_of_le hRung with hLess | hEq
  · rw [List.getElem?_append_left (by rwa [List.length_map]), List.getElem?_map,
      List.getElem?_eq_getElem hLess]
    rfl
  · rw [List.getElem?_append_right (by rw [List.length_map]; omega), List.length_map, hEq,
      Nat.sub_self, List.getElem?_eq_none (Nat.le_refl _)]
    rfl

theorem idxOf_wholeLabel (h : ladder.labels.Nodup) (n : Nat) :
    ladder.labels.idxOf (ladder.wholeLabel n) = ladder.rung n := by
  obtain ⟨hRung, hLabel⟩ := List.getElem?_eq_some_iff.1 (ladder.getElem?_rung n)
  rw [← hLabel]
  exact h.idxOf_getElem (ladder.rung n) hRung

end Ladder

/-! ## Whole numbers -/

theorem Numeral.digitsValue_of_number {a : Numeral} {n : Nat} (h : a.number = n) :
    digitsValue (a.whole ++ a.fraction.getD []) = n * 10 ^ (a.fraction.getD []).length := by
  have hDen : 0 < 10 ^ (a.fraction.getD []).length := Nat.pow_pos (by decide)
  have hNe : ((10 ^ (a.fraction.getD []).length : Nat) : Rat) ≠ 0 := by
    rw [ne_eq, Rat.natCast_eq_zero_iff]
    omega
  have hCast := Rat.div_mul_cancel (a := (digitsValue (a.whole ++ a.fraction.getD []) : Rat)) hNe
  rw [← number, h, ← Rat.natCast_mul, Rat.natCast_inj] at hCast
  exact hCast.symm

/-- A numeral that writes a whole number is compared with a small threshold as that number. -/
theorem Numeral.atMost_value {a : Numeral} {n : Nat} (h : a.number = n) {t : Nat}
    (ht : t + 1 < 2 ^ 53) : a.value.atMost t = decide (n ≤ t) := by
  have hDen : 0 < 10 ^ (a.fraction.getD []).length := Nat.pow_pos (by decide)
  have hDigits := digitsValue_of_number h
  rcases a.value_cases with ⟨hOver, hValue⟩ | ⟨-, units, hUnits, hValue⟩
  · -- the number is too large for a finite one, and the threshold is small
    have hBound : 2 ^ 53 ≤ Binary64.overflowBound := by
      unfold Binary64.overflowBound
      decide +kernel
    rw [Overflows, hDigits, Nat.mul_le_mul_right_iff hDen] at hOver
    rw [hValue, Binary64.atMost, eq_comm, decide_eq_false_iff_not]
    omega
  · have hNearest := Binary64.units_of_ofRatio hValue
    rw [hDigits] at hNearest
    have hAtMost : a.value.atMost t = decide (units ≤ t * Binary64.unitsPerOne) := by
      rw [hValue, Binary64.atMost, Bool.false_or]
    rw [hAtMost, decide_eq_decide, hNearest]
    exact Binary64.nearestUnits_whole_le_iff n ht hDen

theorem Ladder.IsProper.label_value {ladder : Ladder} (h : ladder.IsProper) {a : Numeral} {n : Nat}
    (hNumber : a.number = n) : ladder.label a.value = ladder.wholeLabel n :=
  label_eq_wholeLabel fun step hStep => Numeral.atMost_value hNumber (h.exact_steps step hStep)

/-! ## Classes -/

namespace Utility

/-- The properties whose lengths take a step of a ladder, with the ladders of their classes. -/
def lengthLadders : List (Text × Ladder) :=
  [("padding", spacingLadder.map fun step => "p" ++ "-" ++ step),
    ("margin", spacingLadder.map fun step => "m" ++ "-" ++ step),
    ("gap", spacingLadder.map fun step => "gap" ++ "-" ++ step),
    ("border-radius", radiusLadder)]

theorem isProper_of_mem_lengthLadders {row : Text × Ladder} (h : row ∈ lengthLadders) :
    row.2.IsProper := by
  have hAll : ∀ row ∈ lengthLadders, (row.2.steps.Pairwise fun a b => a.1 < b.1) ∧
      (∀ step ∈ row.2.steps, step.1 + 1 < 2 ^ 53) ∧ row.2.labels.Nodup := by decide
  obtain ⟨hAscending, hExact, hNodup⟩ := hAll row h
  exact ⟨hAscending, hExact, hNodup⟩

theorem declarationClasses_bucket {property : Text} {ladder : Ladder}
    (h : (property, ladder) ∈ lengthLadders) (color : ColorPolicy) {value : Text} {a : Numeral}
    (hValue : Pixel.first? value = some a) :
    declarationClasses ⟨color, .bucket⟩ (property, value) = .ok [ladder.label a.value] := by
  have hSpacing : ∀ stem, Rule.classes ⟨color, .bucket⟩ value (.spacing stem) =
      .ok [(spacingLadder.map fun step => stem ++ "-" ++ step).label a.value] := by
    intro stem
    rw [Rule.classes, lengthClasses, hValue, Ladder.label_map]
  have hRadius : Rule.classes ⟨color, .bucket⟩ value .radius =
      .ok [radiusLadder.label a.value] := by
    rw [Rule.classes, lengthClasses, hValue]
  simp only [lengthLadders, List.mem_cons, List.not_mem_nil, or_false, Prod.mk.injEq] at h
  rcases h with ⟨rfl, rfl⟩ | ⟨rfl, rfl⟩ | ⟨rfl, rfl⟩ | ⟨rfl, rfl⟩
  · exact hSpacing "p"
  · exact hSpacing "m"
  · exact hSpacing "gap"
  · exact hRadius

/-- A single declaration with a whole length has the class that the length has on the ladder. -/
theorem classes_bucket {property : Text} {ladder : Ladder}
    (h : (property, ladder) ∈ lengthLadders) (color : ColorPolicy) {a : Numeral}
    (ha : a.IsWritten) {n : Nat} (hNumber : a.number = n) :
    classes ⟨color, .bucket⟩ (.ofList [(property, a.text ++ "px")]) =
      .ok [ladder.wholeLabel n] := by
  have hFirst : Pixel.first? (a.text ++ "px") = some a :=
    firstMatch_of_match (PixelLiteral.pixelRead?_text ha)
  have hEntries : (OrderedMap.ofList [(property, a.text ++ ofString "px")]).entries =
      [(property, a.text ++ ofString "px")] := rfl
  rw [classes, hEntries, classesOfList, declarationClasses_bucket h color hFirst,
    (isProper_of_mem_lengthLadders h).label_value hNumber]
  rfl

/-- Two whole lengths, written with any digits, take the classes of the smallest thresholds that are
large enough for them, and the class of the smaller one does not stand later on the ladder. -/
theorem classes_bucket_mono {property : Text} {ladder : Ladder}
    (h : (property, ladder) ∈ lengthLadders) (color : ColorPolicy) {a b : Numeral}
    (ha : a.IsWritten) (hb : b.IsWritten) {m n : Nat} (hm : a.number = m) (hn : b.number = n)
    (hLe : m ≤ n) :
    ∃ first second,
      classes ⟨color, .bucket⟩ (.ofList [(property, a.text ++ "px")]) = .ok [first] ∧
      classes ⟨color, .bucket⟩ (.ofList [(property, b.text ++ "px")]) = .ok [second] ∧
      ladder.IsLabelOf m first ∧ ladder.IsLabelOf n second ∧
      ladder.labels.idxOf first ≤ ladder.labels.idxOf second := by
  have hProper := isProper_of_mem_lengthLadders h
  refine ⟨ladder.wholeLabel m, ladder.wholeLabel n, classes_bucket h color ha hm,
    classes_bucket h color hb hn, Ladder.isLabelOf_wholeLabel hProper.ascending m,
    Ladder.isLabelOf_wholeLabel hProper.ascending n, ?_⟩
  rw [Ladder.idxOf_wholeLabel hProper.nodup_labels, Ladder.idxOf_wholeLabel hProper.nodup_labels]
  exact ladder.rung_le_rung hLe

/-- Eight with a digit of another script and zeros behind the point, and four hundred nines, whose
floating-point number is infinite. -/
theorem classes_bucket_mono_infinite :
    let eight : Numeral := ⟨"\u0668", some "00"⟩
    let nines : Numeral := ⟨copies 400 '9', none⟩
    eight.IsWritten ∧ nines.IsWritten ∧ nines.value = .infinite false ∧
      ∃ first second,
        classes ⟨.palette, .bucket⟩ (.ofList [("border-radius", eight.text ++ "px")]) =
          .ok [first] ∧
        classes ⟨.palette, .bucket⟩ (.ofList [("border-radius", nines.text ++ "px")]) =
          .ok [second] ∧
        radiusLadder.IsLabelOf 8 first ∧ radiusLadder.IsLabelOf (10 ^ 400 - 1) second ∧
        radiusLadder.labels.idxOf first ≤ radiusLadder.labels.idxOf second := by
  intro eight nines
  have hEight : eight.IsWritten := ⟨by decide, by decide⟩
  have hNines : nines.IsWritten := ⟨by decide +kernel, by decide +kernel⟩
  have hMember : (ofString "border-radius", radiusLadder) ∈ lengthLadders := by
    simp [lengthLadders]
  have hWhole : digitsValue (copies 400 '9') = 10 ^ 400 - 1 := by decide +kernel
  have hNumber : nines.number = ((10 ^ 400 - 1 : Nat) : Rat) := by
    rw [Numeral.number_eq_of_none, hWhole]
  exact ⟨hEight, hNines, by decide +kernel,
    classes_bucket_mono hMember .palette hEight hNines (m := 8) (by decide +kernel) hNumber
      (by decide +kernel)⟩

end Utility

end StyleScaffold
