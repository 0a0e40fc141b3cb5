import StyleScaffold.Proofs.Css.MinifiedAnalysis

/-!
# Where custom properties are found

A custom property is found wherever two dashes, a name and a colon stand, whatever else the place
is. Its value runs to the next semicolon or closing brace, so the scan starts afresh behind each of
these (`findings_append_end`). An opening brace does not end a value: the scan starts afresh
behind one as well, unless a value runs over it (`findings_append_opening`).

* `isMarked_iff`: where something is found.
* `findings_declared`, `findings_undeclared`: what is found in a declaration.
* `findings_join_append`: what is found in lines.
-/

namespace StyleScaffold.Css

open Text

variable {s t : Text} {c : CodePoint}

/-! ## Names and colons -/

/-- The name of a custom property at the start of a text, and what is behind its colon. -/
def propertyMark? (s : Text) : Option (Text × Text) := do
  let rest ← strip? "--" s
  let (name, rest) ← run? isNameChar rest
  let rest ← strip? ":" (trimLeft rest)
  some (name, rest)

/-- The character has no part in a name, in the blanks behind it or in the marks around. -/
def isBarrier (c : CodePoint) : Bool := ! isNameChar c && ! isBlank c && c ≠ ':'

theorem customProperty?_eq_mark (s : Text) :
    customProperty? s = (propertyMark? s).bind fun (name, rest) =>
      (run? isValueChar rest).map fun (value, rest) => ((name, trim value), rest) := by
  rw [customProperty?_eq, propertyMark?]
  unfold propertyBody?
  cases strip? "--" s with
  | none => rfl
  | some rest =>
    simp only [Option.bind_eq_bind, Option.bind_some, Option.bind_assoc]
    cases run? isNameChar rest with
    | none => rfl
    | some found =>
      obtain ⟨name, rest⟩ := found
      simp only [Option.bind_some]
      cases strip? ":" (trimLeft rest) with
      | none => rfl
      | some rest =>
        simp only [Option.bind_some]
        cases run? isValueChar rest <;> rfl

/-- A custom property is a mark with a character of a value behind it. -/
theorem customProperty?_ne_none_iff : customProperty? s ≠ none ↔
    ∃ name c rest, propertyMark? s = some (name, c :: rest) ∧ isValueChar c = true := by
  rw [customProperty?_eq_mark]
  cases propertyMark? s with
  | none => simp
  | some found =>
    obtain ⟨name, _ | ⟨c, rest⟩⟩ := found
    · simp [run?_eq]
    · cases hc : isValueChar c <;> simp [run?_eq, hc]

theorem propertyMark?_append_cons (hc : isBarrier c = true) (s t : Text) :
    propertyMark? (s ++ c :: t) = (propertyMark? s).map (Prod.map id (· ++ c :: t)) := by
  simp only [isBarrier, Bool.and_eq_true, Bool.not_eq_true', decide_eq_true_eq] at hc
  obtain ⟨⟨hName, hBlank⟩, hColon⟩ := hc
  have hDash : c ∉ ofString "--" := by
    have hAll : ∀ d ∈ ofString "--", isNameChar d = true := by decide
    intro hMem
    rw [hAll c hMem] at hName
    contradiction
  unfold propertyMark?
  rw [strip?_append_cons hDash]
  cases strip? "--" s with
  | none => rfl
  | some rest =>
    simp only [Option.map_some, Option.bind_eq_bind, Option.bind_some, run?_append_cons hName]
    cases run? isNameChar rest with
    | none => rfl
    | some found =>
      obtain ⟨name, rest⟩ := found
      simp only [Option.map_some, Option.bind_some, Prod.map_apply, id_eq, trimLeft_append_cons hBlank]
      rw [strip?_append_cons (by simpa [ofString] using hColon)]
      cases strip? ":" (trimLeft rest) <;> rfl

theorem not_isNameChar_of_isBlank (hc : isBlank c = true) : isNameChar c = false := by
  rw [Bool.eq_false_iff]
  intro hName
  rw [isBlank_of_isCore (isCore_of_isNameChar hName)] at hc
  contradiction

theorem propertyMark?_eq_some_iff {name rest : Text} :
    propertyMark? s = some (name, rest) ↔ ∃ gap, s = ofString "--" ++ name ++ gap ++ .char ':' :: rest ∧
      name ≠ [] ∧ (∀ c ∈ name, isNameChar c = true) ∧ allBlank gap = true := by
  constructor
  · intro h
    obtain ⟨t, hDashes, h⟩ := Option.bind_eq_some_iff.1 h
    obtain ⟨⟨name, u⟩, hName, h⟩ := Option.bind_eq_some_iff.1 h
    obtain ⟨v, hColon, h⟩ := Option.bind_eq_some_iff.1 h
    cases h
    obtain ⟨gap, hGap, hu⟩ := exists_trimLeft u
    refine ⟨gap, ?_, ne_nil_of_run? hName, forall_of_run? hName, hGap⟩
    rw [strip?_eq_some_iff.1 hDashes, append_of_run? hName, hu, strip?_eq_some_iff.1 hColon]
    simp [ofString]
  · rintro ⟨gap, rfl, hne, hName, hGap⟩
    have hColon : isBlank ':' = false := by decide
    have hStop : ∀ c ∈ (gap ++ .char ':' :: rest).head?, isNameChar c = false := by
      intro c hc
      cases gap with
      | nil =>
        obtain rfl : .char ':' = c := by simpa using hc
        decide
      | cons d gap =>
        obtain rfl : d = c := by simpa using hc
        rw [allBlank_cons, Bool.and_eq_true] at hGap
        exact not_isNameChar_of_isBlank hGap.1
    have hStrip : strip? ":" (.char ':' :: rest) = some rest := strip?_eq_some_iff.2 rfl
    rw [propertyMark?, List.append_assoc, List.append_assoc, strip?_eq_some_iff.2 rfl]
    simp only [Option.bind_eq_bind, Option.bind_some, run?_append hne hName hStop, trimLeft_append hGap,
      trimLeft_cons_of_solid hColon, hStrip]

/-! ## The end of a value -/

/-- The custom properties found, in order. -/
def findings (s : Text) : List (Text × Text) := allMatches customProperty? s

theorem findings_nil : findings [] = [] := by
  rw [findings, allMatches]

theorem findings_of_none (h : customProperty? (c :: s) = none) : findings (c :: s) = findings s :=
  allMatches_of_none h

theorem findings_of_some {d : Text × Text} {rest : Text} (h : customProperty? s = some (d, rest)) :
    findings s = d :: findings rest :=
  isScanner_customProperty?.allMatches_of_some h

theorem customProperty?_append_end (hc : isValueChar c = false) (s t : Text) :
    customProperty? (s ++ c :: t) = (customProperty? s).map (Prod.map id (· ++ c :: t)) := by
  have hBarrier : isBarrier c = true := by
    simp only [isValueChar, Bool.and_eq_false_iff, decide_eq_false_iff_not, Decidable.not_not] at hc
    rcases hc with rfl | rfl <;> decide
  rw [customProperty?_eq_mark, customProperty?_eq_mark, propertyMark?_append_cons hBarrier]
  cases propertyMark? s with
  | none => rfl
  | some found =>
    obtain ⟨name, rest⟩ := found
    simp only [Option.map_some, Option.bind_some, Prod.map_apply, id_eq, run?_append_cons hc,
      Option.map_map]
    rfl

/-- The scan starts afresh behind a semicolon and behind a closing brace. -/
theorem findings_append_end (hc : isValueChar c = false) (s t : Text) :
    findings (s ++ c :: t) = findings s ++ findings t := by
  have hHere := fun s => customProperty?_append_end hc s t
  induction s using isScanner_customProperty?.induction with
  | nil => rw [findings_nil, List.nil_append, findings_of_none (hHere [])]; rfl
  | skip d s h ih =>
    have hNone := hHere (d :: s)
    rw [h] at hNone
    rw [findings_of_none h, ← ih]
    exact findings_of_none hNone
  | found s d rest h ih =>
    have hSome := hHere s
    rw [h] at hSome
    rw [findings_of_some h, findings_of_some hSome, ih]
    rfl

/-! ## Opening braces -/

theorem customProperty?_append_opening (s : Text) :
    (∀ u, ∃ d rest, customProperty? (s ++ .char '{' :: u) = some (d, rest) ∧ .char '{' ∈ d.2) ∨
      ∀ u, customProperty? (s ++ .char '{' :: u) =
        (customProperty? s).map (Prod.map id (· ++ .char '{' :: u)) := by
  have hMark : ∀ u, propertyMark? (s ++ .char '{' :: u) =
      (propertyMark? s).map (Prod.map id (· ++ .char '{' :: u)) :=
    fun u => propertyMark?_append_cons (by decide) s u
  simp only [customProperty?_eq_mark, hMark]
  cases propertyMark? s with
  | none => exact Or.inr fun _ => rfl
  | some found =>
    obtain ⟨name, rest⟩ := found
    simp only [Option.map_some, Option.bind_some, Prod.map_apply, id_eq]
    by_cases hAll : ∀ c ∈ rest, isValueChar c = true
    · left
      intro u
      have hAppend : ∀ c ∈ rest ++ [.char '{'], isValueChar c = true :=
        List.forall_mem_append.2 ⟨hAll, by decide⟩
      have hRun : run? isValueChar (rest ++ .char '{' :: u) =
          some (rest ++ .char '{' :: u.takeWhile isValueChar, u.dropWhile isValueChar) := by
        have hText : rest ++ .char '{' :: u = rest ++ [.char '{'] ++ u := by simp
        rw [hText, run?, run, List.takeWhile_append_of_pos hAppend,
          List.dropWhile_append_of_pos hAppend, if_neg (by simp)]
        simp
      rw [hRun]
      exact ⟨_, _, rfl, mem_trim (by decide) (by simp)⟩
    · right
      intro u
      simp only [not_forall, Bool.not_eq_true] at hAll
      obtain ⟨c, hMem, hc⟩ := hAll
      obtain ⟨a, b, rfl⟩ := List.append_of_mem hMem
      rw [List.append_assoc, List.cons_append, run?_append_cons hc, run?_append_cons hc]
      cases run? isValueChar a <;> simp

/-- A value runs over the brace, or the scan starts afresh behind it. -/
theorem findings_append_opening (s : Text) :
    (∀ u, ∃ d ∈ findings (s ++ .char '{' :: u), .char '{' ∈ d.2) ∨
      ∀ u, findings (s ++ .char '{' :: u) = findings s ++ findings u := by
  induction s using isScanner_customProperty?.induction with
  | nil => exact Or.inr fun u => by rw [findings_nil]; exact findings_of_none rfl
  | skip c s h ih =>
    rcases customProperty?_append_opening (c :: s) with hOver | hHere
    · refine Or.inl fun u => ?_
      obtain ⟨d, rest, hSome, hd⟩ := hOver u
      exact ⟨d, by rw [findings_of_some hSome]; exact List.mem_cons_self, hd⟩
    · have hNone : ∀ u, customProperty? (c :: (s ++ .char '{' :: u)) = none := fun u => by
        rw [← List.cons_append, hHere, h]
        rfl
      refine ih.imp (fun hOver u => ?_) (fun hMore u => ?_)
      · rw [List.cons_append, findings_of_none (hNone u)]
        exact hOver u
      · rw [List.cons_append, findings_of_none (hNone u), findings_of_none h, hMore]
  | found s d rest h ih =>
    rcases customProperty?_append_opening s with hOver | hHere
    · refine Or.inl fun u => ?_
      obtain ⟨d, rest, hSome, hd⟩ := hOver u
      exact ⟨d, by rw [findings_of_some hSome]; exact List.mem_cons_self, hd⟩
    · have hSome : ∀ u, customProperty? (s ++ .char '{' :: u) =
          some (d, rest ++ .char '{' :: u) := fun u => by
        rw [hHere, h]
        rfl
      refine ih.imp (fun hOver u => ?_) (fun hMore u => ?_)
      · obtain ⟨e, he, hBrace⟩ := hOver u
        exact ⟨e, by rw [findings_of_some (hSome u)]; exact List.mem_cons_of_mem d he, hBrace⟩
      · rw [findings_of_some (hSome u), findings_of_some h, hMore, List.cons_append]

/-! ## Marks -/

/-- Two dashes, a name and a colon stand in the text, and a character of a value behind them. -/
def IsMarked (s : Text) : Prop :=
  ∃ front name gap c back,
    s = front ++ (ofString "--" ++ name ++ gap ++ .char ':' :: c :: back) ∧ name ≠ [] ∧
      (∀ d ∈ name, isNameChar d = true) ∧ allBlank gap = true ∧ isValueChar c = true

/-- Something is found just where the text is marked. -/
theorem isMarked_iff : IsMarked s ↔ findings s ≠ [] := by
  rw [findings, ne_eq, isScanner_customProperty?.allMatches_eq_nil_iff]
  constructor
  · rintro ⟨front, name, gap, c, back, rfl, hne, hName, hGap, hc⟩ hNone
    have hMark : propertyMark? (ofString "--" ++ name ++ gap ++ .char ':' :: c :: back) =
        some (name, c :: back) := propertyMark?_eq_some_iff.2 ⟨gap, rfl, hne, hName, hGap⟩
    exact customProperty?_ne_none_iff.2 ⟨name, c, back, hMark, hc⟩ (hNone front _ rfl)
  · intro hSome
    simp only [not_forall] at hSome
    obtain ⟨front, back, rfl, hBack⟩ := hSome
    obtain ⟨name, c, rest, hMark, hc⟩ := customProperty?_ne_none_iff.1 hBack
    obtain ⟨gap, rfl, hne, hName, hGap⟩ := propertyMark?_eq_some_iff.1 hMark
    exact ⟨front, name, gap, c, rest, rfl, hne, hName, hGap, hc⟩

theorem name_ne_nil_of_mem_findings {d : Text × Text} (h : d ∈ findings s) : d.1 ≠ [] := by
  obtain ⟨front, back, rest, -, hSome⟩ := isScanner_customProperty?.exists_of_mem_allMatches h
  rw [customProperty?_eq_mark] at hSome
  obtain ⟨⟨name, more⟩, hMark, hValue⟩ := Option.bind_eq_some_iff.1 hSome
  obtain ⟨gap, -, hne, -, -⟩ := propertyMark?_eq_some_iff.1 hMark
  obtain ⟨⟨value, _⟩, -, hEq⟩ := Option.map_eq_some_iff.1 hValue
  cases hEq
  exact hne

/-! ## Declarations -/

theorem findings_declared {name value : Text} (hne : name ≠ [])
    (hName : ∀ c ∈ name, isNameChar c = true) (hValue : ∀ c ∈ value, isValueChar c = true)
    (hTrim : Trimmed value) :
    findings (ofString "--" ++ name ++ .char ':' :: .char ' ' :: value) = [(name, value)] := by
  have hMark : propertyMark? (ofString "--" ++ name ++ .char ':' :: .char ' ' :: value) =
      some (name, .char ' ' :: value) :=
    propertyMark?_eq_some_iff.2 ⟨[], by simp, hne, hName, rfl⟩
  have hRun : run? isValueChar (.char ' ' :: value) = some (.char ' ' :: value, []) := by
    have hAll : ∀ c ∈ CodePoint.char ' ' :: value, isValueChar c = true :=
      List.forall_mem_cons.2 ⟨by decide, hValue⟩
    have hRest : ∀ c ∈ ([] : Text).head?, isValueChar c = false := by simp
    simpa using run?_append (by simp) hAll hRest
  have hSome : customProperty? (ofString "--" ++ name ++ .char ':' :: .char ' ' :: value) =
      some ((name, value), []) := by
    have hValue : trim (.char ' ' :: value) = value := by
      rw [← List.singleton_append, trim_append_left (by decide), hTrim.trim_eq]
    simp only [customProperty?_eq_mark, hMark, Option.bind_some, hRun, Option.map_some, hValue]
  rw [findings_of_some hSome, findings_nil]

theorem findings_undeclared {property : Text}
    (h : property = "--" ∨ holds "--" property = false) (value : Text) :
    findings (property ++ .char ':' :: .char ' ' :: value) = findings value := by
  have hColon : findings (.char ':' :: .char ' ' :: value) = findings value := by
    rw [findings_of_none rfl, findings_of_none rfl]
  rcases h with rfl | hNone
  · rw [← hColon]
    exact (findings_of_none rfl).trans (findings_of_none rfl)
  · rw [← hColon]
    induction property with
    | nil => rfl
    | cons c property ih =>
      have hHere : strip? "--" (c :: property) = none ∧ holds "--" property = false := by
        rw [holds, after?] at hNone
        cases hStrip : strip? "--" (c :: property) with
        | none =>
          rw [hStrip] at hNone
          exact ⟨rfl, hNone⟩
        | some rest =>
          rw [hStrip] at hNone
          cases hNone
      have hStrip : strip? "--" (c :: property ++ .char ':' :: .char ' ' :: value) = none := by
        rw [strip?_append_cons (by decide), hHere.1]
        rfl
      rw [← ih hHere.2]
      apply findings_of_none
      rw [customProperty?_eq]
      exact congrArg (Option.bind · propertyBody?) hStrip

/-! ## Lines -/

theorem findings_break (t : Text) : findings (.char '\n' :: t) = findings t :=
  findings_of_none rfl

/-- Texts on lines of their own are scanned one by one if nothing is found over the end of one. -/
theorem findings_join_append {α : Type} {text : α → Text} {found : α → List (Text × Text)}
    (h : ∀ a t, findings (text a ++ t) = found a ++ findings t) (as : List α) (t : Text) :
    findings (join ['\n'] (as.map text) ++ t) = as.flatMap found ++ findings t := by
  induction as with
  | nil => rfl
  | cons a as ih =>
    by_cases hRest : as = []
    · subst hRest
      rw [List.map_singleton, join_singleton, h, List.flatMap_singleton]
    · rw [List.map_cons, join_cons (by simpa using hRest), List.append_assoc, List.append_assoc,
        h, List.singleton_append, findings_break, ih, List.flatMap_cons, List.append_assoc]

end StyleScaffold.Css
