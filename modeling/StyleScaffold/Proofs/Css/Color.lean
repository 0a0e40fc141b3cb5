import StyleScaffold.Proofs.Css.Finding

/-!
# Colours in a rewritten text

A colour is a hash with hexadecimal digits, or a function with numbers as its arguments. Blanks may
stand around the arguments, so a rewriting may change how a colour is written, but not where it
begins and ends (`isColorReader_color?`).
-/

namespace StyleScaffold.Css

open Text

variable {T : Text → Text} {s : Text}

/-- What is found is a compact text with the start of the text in it, and in a rewritten text it is
found as it is rewritten. -/
structure IsColorReader (r : Text → Option (Text × Text)) : Prop where
  found : ∀ {s color rest}, r s = some (color, rest) →
    s = color ++ rest ∧ IsCompact color ∧ ∃ c ∈ color.head?, isCore c = true
  carries : ∀ {T}, KeepsFindings T → ∀ s, r (T s) = (r s).map (Prod.map T T)

theorem IsColorReader.orElse {r r' : Text → Option (Text × Text)} (h : IsColorReader r)
    (h' : IsColorReader r') : IsColorReader fun s => r s <|> r' s where
  found := by
    intro s color rest hFound
    cases hr : r s with
    | some found =>
      rw [hr] at hFound
      cases hFound
      exact h.found hr
    | none =>
      rw [hr] at hFound
      exact h'.found hFound
  carries := by
    intro T hT s
    rw [h.carries hT, h'.carries hT]
    cases r s with
    | some found => rfl
    | none => rfl

theorem IsColorReader.isScanner {r : Text → Option (Text × Text)} (h : IsColorReader r) :
    IsScanner r := by
  intro s color rest hFound
  obtain ⟨rfl, -, c, hc, hCore⟩ := h.found hFound
  obtain ⟨m, rfl⟩ := List.head?_eq_some_iff.1 hc
  exact ⟨c, m, hCore, rfl⟩

/-! ## Hexadecimal digits -/

theorem atWordEnd_eq (s : Text) : atWordEnd s = ! s.head?.any isWordChar := by
  cases s <;> rfl

theorem hashColor?_eq_some_iff {count : Nat} {color rest : Text} :
    hashColor? count s = some (color, rest) ↔
      ∃ digits, s = .char '#' :: digits ++ rest ∧ digits.length = count ∧
        (∀ c ∈ digits, isHexDigit c = true) ∧ rest.head?.any isWordChar = false ∧
        color = .char '#' :: digits := by
  constructor
  · intro h
    obtain ⟨t, hHash, h⟩ := Option.bind_eq_some_iff.1 h
    simp only [Option.ite_none_right_eq_some, Bool.and_eq_true, decide_eq_true_eq, atWordEnd_eq,
      Bool.not_eq_true', List.all_eq_true] at h
    obtain ⟨⟨⟨hLength, hDigits⟩, hEnd⟩, hEq⟩ := h
    cases hEq
    refine ⟨t.take count, ?_, hLength, hDigits, hEnd, rfl⟩
    rw [strip?_eq_some_iff.1 hHash, List.cons_append, List.take_append_drop]
    rfl
  · rintro ⟨digits, rfl, rfl, hDigits, hEnd, rfl⟩
    have hHash : strip? "#" (.char '#' :: digits ++ rest) = some (digits ++ rest) :=
      strip?_eq_some_iff.2 rfl
    rw [hashColor?, hHash, Option.bind_eq_bind, Option.bind_some, List.take_left, List.drop_left,
      atWordEnd_eq, hEnd]
    exact if_pos (by simpa using hDigits)

theorem isColorReader_hashColor? (count : Nat) : IsColorReader (hashColor? count) where
  found := by
    intro s color rest h
    obtain ⟨digits, rfl, -, hDigits, -, rfl⟩ := hashColor?_eq_some_iff.1 h
    have hCore : ∀ c ∈ .char '#' :: digits, isCore c = true :=
      List.forall_mem_cons.2 ⟨by decide, fun c hc => isCore_of_isHexDigit (hDigits c hc)⟩
    refine ⟨rfl, ⟨?_, ?_⟩, .char '#', rfl, by decide⟩
    · intro c hc
      exact isBlank_of_isCore (hCore c (List.mem_of_getLast? hc))
    · intro hMem
      exact absurd (hCore _ hMem) (by decide)
  carries := by
    intro T hT s
    have hCore : ∀ {digits : Text}, (∀ c ∈ digits, isHexDigit c = true) →
        ∀ c ∈ .char '#' :: digits, isCore c = true := fun hDigits =>
      List.forall_mem_cons.2 ⟨by decide, fun c hc => isCore_of_isHexDigit (hDigits c hc)⟩
    have hEnd := hT.any_head? (fun _ => isCore_of_isWordChar)
    apply Option.ext
    rintro ⟨color, rest⟩
    rw [hashColor?_eq_some_iff, Option.map_eq_some_iff]
    constructor
    · rintro ⟨digits, hEq, hLength, hDigits, hWord, rfl⟩
      obtain ⟨t, rfl, rfl⟩ := (hT.eq_append_iff (hCore hDigits)).1 hEq
      rw [hEnd] at hWord
      refine ⟨(.char '#' :: digits, t), ?_, ?_⟩
      · exact hashColor?_eq_some_iff.2 ⟨digits, rfl, hLength, hDigits, hWord, rfl⟩
      · rw [Prod.map_apply, hT.eq_self_of_core (hCore hDigits)]
    · rintro ⟨⟨color', t⟩, hFound, hEq⟩
      obtain ⟨digits, rfl, hLength, hDigits, hWord, rfl⟩ := hashColor?_eq_some_iff.1 hFound
      rw [Prod.map_apply, hT.eq_self_of_core (hCore hDigits)] at hEq
      cases hEq
      refine ⟨digits, hT.append_core (hCore hDigits) t, hLength, hDigits, ?_, rfl⟩
      rw [hEnd]
      exact hWord

/-! ## Functions -/

variable {f k : Text → Option Text}

/-- In a rewritten text the function leaves the rewritten rest. -/
def Carries (T : Text → Text) (f : Text → Option Text) : Prop := ∀ s, f (T s) = (f s).map T

theorem Carries.bind (hf : Carries T f) (hk : Carries T k) :
    Carries T fun s => (f s).bind k := by
  intro s
  show (f (T s)).bind k = ((f s).bind k).map T
  rw [hf]
  cases f s with
  | none => rfl
  | some t => exact hk t

/-- The function goes over a text without semicolons. -/
def Passes (f : Text → Option Text) : Prop :=
  ∀ s rest, f s = some rest → ∃ m, .char ';' ∉ m ∧ s = m ++ rest

/-- The function goes over a compact text that is not empty. -/
def Closes (f : Text → Option Text) : Prop :=
  ∀ s rest, f s = some rest → ∃ m, m ≠ [] ∧ IsCompact m ∧ s = m ++ rest

theorem Passes.bind (hf : Passes f) (hk : Passes k) : Passes fun s => (f s).bind k := by
  intro s rest h
  obtain ⟨t, hFirst, hSecond⟩ := Option.bind_eq_some_iff.1 h
  obtain ⟨m, hm, rfl⟩ := hf s t hFirst
  obtain ⟨m', hm', rfl⟩ := hk t rest hSecond
  refine ⟨m ++ m', ?_, (List.append_assoc m m' rest).symm⟩
  rw [List.mem_append, not_or]
  exact ⟨hm, hm'⟩

theorem IsCompact.append {m m' : Text} (hm : .char ';' ∉ m) (hne : m' ≠ []) (hm' : IsCompact m') :
    IsCompact (m ++ m') where
  last := by
    rw [getLast?_append_of_ne_nil hne]
    exact hm'.last
  noSemicolon := by
    rw [List.mem_append, not_or]
    exact ⟨hm, hm'.noSemicolon⟩

theorem Passes.bind_closes (hf : Passes f) (hk : Closes k) : Closes fun s => (f s).bind k := by
  intro s rest h
  obtain ⟨t, hFirst, hSecond⟩ := Option.bind_eq_some_iff.1 h
  obtain ⟨m, hm, rfl⟩ := hf s t hFirst
  obtain ⟨m', hne, hm', rfl⟩ := hk t rest hSecond
  exact ⟨m ++ m', List.append_ne_nil_of_right_ne_nil m hne, hm'.append hm hne,
    (List.append_assoc m m' rest).symm⟩

theorem passes_strip? {lead : Text} (hLead : .char ';' ∉ lead) : Passes (strip? lead) :=
  fun _ _ h => ⟨lead, hLead, strip?_eq_some_iff.1 h⟩

theorem closes_strip? {lead : Text} (hne : lead ≠ []) (hLead : IsCompact lead) :
    Closes (strip? lead) :=
  fun _ _ h => ⟨lead, hne, hLead, strip?_eq_some_iff.1 h⟩

section Argument

variable {p : CodePoint → Bool} (hp : ∀ c, p c = true → isCore c = true)

include hp

theorem carries_argument? (hT : KeepsFindings T) : Carries T (argument? p) := by
  intro s
  rw [argument?, argument?, hT.trimLeft_eq, hT.run?_rewriting hp]
  cases run? p (trimLeft s) with
  | none => rfl
  | some found => exact congrArg some (hT.trimLeft_eq found.2)

theorem passes_argument? : Passes (argument? p) := by
  intro s rest h
  obtain ⟨⟨m, t⟩, hRun, rfl⟩ := Option.map_eq_some_iff.1 h
  obtain ⟨u, hu, hs⟩ := exists_trimLeft s
  obtain ⟨v, hv, ht⟩ := exists_trimLeft t
  refine ⟨u ++ (m ++ v), ?_, ?_⟩
  · have hm : .char ';' ∉ m := by
      intro hMem
      exact absurd (hp _ (forall_of_run? hRun _ hMem)) (by decide)
    have hBlank : isBlank (.char ';') = false := by decide
    rw [List.mem_append, List.mem_append, not_or, not_or]
    exact ⟨not_mem_of_allBlank hu hBlank, hm, not_mem_of_allBlank hv hBlank⟩
  · rw [List.append_assoc, List.append_assoc, ← ht, ← append_of_run? hRun, ← hs]

end Argument

/-- The digits and points of a last argument. -/
def isAlphaChar (c : CodePoint) : Bool := ('0' ≤ c && c ≤ '9') || c = '.'

theorem isCore_of_isAlphaChar (c : CodePoint) (h : isAlphaChar c = true) : isCore c = true := by
  rw [isAlphaChar, Bool.or_eq_true, decide_eq_true_eq] at h
  rcases h with hDigit | rfl
  · apply isCore_of_isAsciiAlnum
    rw [isAsciiAlnum, isAsciiDigit, hDigit, Bool.true_or]
  · decide

theorem carries_afterColorFunction? {name : Text} (hName : ∀ c ∈ name, isCore c = true)
    (hasAlpha : Bool) (hT : KeepsFindings T) : Carries T (afterColorFunction? name hasAlpha) := by
  have hMark : ∀ {lead : Text}, (∀ c ∈ lead, isCore c = true) → Carries T (strip? lead) :=
    fun hLead s => hT.strip?_rewriting hLead s
  have hOpen : ∀ c ∈ name ++ "(", isCore c = true :=
    List.forall_mem_append.2 ⟨hName, by decide⟩
  have hComma : Carries T (strip? ",") := hMark (by decide)
  have hClose : Carries T (strip? ")") := hMark (by decide)
  have hDigits : Carries T (argument? isDigit) := carries_argument? (fun _ => isCore_of_isDigit) hT
  cases hasAlpha with
  | false =>
    exact (hMark hOpen).bind (hDigits.bind (hComma.bind (hDigits.bind (hComma.bind
      (hDigits.bind hClose)))))
  | true =>
    have hAlpha : Carries T (argument? isAlphaChar) := carries_argument? isCore_of_isAlphaChar hT
    exact (hMark hOpen).bind (hDigits.bind (hComma.bind (hDigits.bind (hComma.bind
      (hDigits.bind (hComma.bind (hAlpha.bind hClose)))))))

theorem exists_of_afterColorFunction? {name rest : Text} (hName : .char ';' ∉ name)
    {hasAlpha : Bool} (h : afterColorFunction? name hasAlpha s = some rest) :
    ∃ m, IsCompact (name ++ m) ∧ s = name ++ m ++ rest := by
  have hComma : Passes (strip? ",") := passes_strip? (by decide)
  have hClose : Closes (strip? ")") := closes_strip? (by decide) ⟨by decide, by decide⟩
  have hDigits : Passes (argument? isDigit) := passes_argument? fun _ => isCore_of_isDigit
  have hAlpha : Passes (argument? isAlphaChar) := passes_argument? isCore_of_isAlphaChar
  obtain ⟨t, hOpen, h⟩ := Option.bind_eq_some_iff.1 h
  obtain ⟨m, hne, hm, rfl⟩ : ∃ m, m ≠ [] ∧ IsCompact m ∧ t = m ++ rest := by
    cases hasAlpha with
    | false =>
      exact (hDigits.bind_closes (hComma.bind_closes (hDigits.bind_closes (hComma.bind_closes
        (hDigits.bind_closes hClose))))) t rest h
    | true =>
      exact (hDigits.bind_closes (hComma.bind_closes (hDigits.bind_closes (hComma.bind_closes
        (hDigits.bind_closes (hComma.bind_closes (hAlpha.bind_closes hClose))))))) t rest h
  have hLead : .char ';' ∉ name ++ "(" := by
    rw [List.mem_append, not_or]
    exact ⟨hName, by decide⟩
  refine ⟨"(" ++ m, ?_, ?_⟩
  · rw [← List.append_assoc]
    exact hm.append hLead hne
  · rw [strip?_eq_some_iff.1 hOpen]
    simp

theorem isColorReader_colorFunction? {name : Text} (hName : ∀ c ∈ name, isCore c = true)
    (hne : name ≠ []) (hasAlpha : Bool) : IsColorReader (colorFunction? name hasAlpha) := by
  have hSemicolon : .char ';' ∉ name := by
    intro hMem
    exact absurd (hName _ hMem) (by decide)
  have written : ∀ m rest : Text, (m ++ rest).take ((m ++ rest).length - rest.length) = m := by
    intro m rest
    rw [List.length_append, Nat.add_sub_cancel, List.take_left]
  constructor
  · intro s color rest h
    obtain ⟨t, hAfter, hEq⟩ := Option.map_eq_some_iff.1 h
    cases hEq
    obtain ⟨m, hm, rfl⟩ := exists_of_afterColorFunction? hSemicolon hAfter
    obtain ⟨c, more, rfl⟩ := List.exists_cons_of_ne_nil hne
    rw [written]
    exact ⟨rfl, hm, c, rfl, hName c List.mem_cons_self⟩
  · intro T hT s
    rw [colorFunction?, colorFunction?, carries_afterColorFunction? hName hasAlpha hT]
    cases hAfter : afterColorFunction? name hasAlpha s with
    | none => rfl
    | some rest =>
      obtain ⟨m, hm, rfl⟩ := exists_of_afterColorFunction? hSemicolon hAfter
      rw [Option.map_some, Option.map_some, Option.map_some, Option.map_some, written,
        hT.append hm, written]
      rfl

theorem isColorReader_color? : IsColorReader color? := by
  have hRgb : IsColorReader (colorFunction? "rgb" false) :=
    isColorReader_colorFunction? (by decide) (by decide) false
  have hRgba : IsColorReader (colorFunction? "rgba" true) :=
    isColorReader_colorFunction? (by decide) (by decide) true
  exact (isColorReader_hashColor? 6).orElse ((isColorReader_hashColor? 3).orElse (hRgb.orElse hRgba))

end StyleScaffold.Css
