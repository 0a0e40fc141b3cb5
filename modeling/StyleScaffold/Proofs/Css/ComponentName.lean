import StyleScaffold.Css.ComponentName
import StyleScaffold.Proofs.Css.Comment

/-!
# Names of components

Whatever the stylesheet is, its name consists of letters and digits, since a comment and a class
selector are stripped of everything else (`isAsciiAlnum_of_mem_componentName`; the default is the
only other source). A stylesheet that begins with a class of letters and digits is named after
that class, provided that no comment is in it (`componentName_classRule`).
-/

namespace StyleScaffold.Css

open Text

/-! ## Names from comments -/

/-- A content that is found: something is in it, and no star. -/
def IsPlainContent (content : Text) : Prop := content ≠ [] ∧ .char '*' ∉ content

/-- A plain comment has plain content and is closed behind it. -/
theorem exists_of_plainComment? {s content : Text} (h : plainComment? s = some content) :
    ∃ c rest, s = commentText c ++ rest ∧ IsPlainContent c ∧ content = trim c := by
  simp only [plainComment?, Option.bind_eq_bind, Option.bind_eq_some_iff,
    Option.ite_none_right_eq_some] at h
  obtain ⟨inside, hOpen, ⟨c, behind⟩, hRun, hClose, hContent⟩ := h
  obtain ⟨rest, hRest⟩ := Option.isSome_iff_exists.1 hClose
  have hBehind : behind = "*/" ++ rest := strip?_eq_some_iff.1 hRest
  refine ⟨c, rest, ?_, ⟨ne_nil_of_run? hRun, fun hStar => ?_⟩, (Option.some.inj hContent).symm⟩
  · rw [strip?_eq_some_iff.1 hOpen, append_of_run? hRun, hBehind, commentText]
    simp only [List.append_assoc]
  · have hOther := forall_of_run? hRun _ hStar
    simp at hOther

theorem plainComment?_commentText {content : Text} (h : IsPlainContent content) (rest : Text) :
    plainComment? (commentText content ++ rest) = some (trim content) := by
  have hStrip : strip? "/*" (commentText content ++ rest) = some (content ++ ("*/" ++ rest)) := by
    rw [strip?_eq_some_iff, commentText, List.append_assoc, List.append_assoc]
  have hRun : run? (· ≠ .char '*') (content ++ ("*/" ++ rest)) = some (content, "*/" ++ rest) := by
    refine run?_append h.1 (fun c hc => ?_) (fun c hc => ?_)
    · rw [decide_eq_true_eq]
      rintro rfl
      exact h.2 hc
    · cases hc
      rfl
  have hClosing : startsWith "*/" ("*/" ++ rest) = true := rfl
  simp only [plainComment?, hStrip, hRun, hClosing, Option.bind_eq_bind, Option.bind_some, if_true]

/-- The name that the content of a comment gives. -/
def contentName? (content : Text) : Option Text :=
  if holds layoutNote content || maxNameComment ≤ content.length then none
  else identifierIn? content

theorem nameFromComment?_eq (sheet : Text) :
    nameFromComment? sheet = (firstMatch plainComment? sheet).bind contentName? := rfl

theorem nameFromComment?_eq_none {sheet : Text} (h : hasComment sheet = false) :
    nameFromComment? sheet = none := by
  have hNone : firstMatch plainComment? sheet = none := by
    rw [Option.eq_none_iff_forall_ne_some]
    intro content hMatch
    obtain ⟨front, back, rfl, hPlain⟩ := exists_of_firstMatch hMatch
    obtain ⟨c, rest, rfl, -⟩ := exists_of_plainComment? hPlain
    rw [hasComment_iff.2 ⟨front, c, rest, rfl⟩] at h
    cases h
  rw [nameFromComment?, hNone]
  rfl

theorem isAsciiAlnum_of_nameFromComment? {sheet name : Text}
    (h : nameFromComment? sheet = some name) : ∀ c ∈ name, isAsciiAlnum c = true := by
  simp only [nameFromComment?, Option.bind_eq_bind, Option.bind_eq_some_iff,
    Option.ite_none_left_eq_some, identifierIn?, Option.some.injEq] at h
  obtain ⟨content, -, -, -, rfl⟩ := h
  intro c hc
  exact (List.mem_filter.1 hc).2

/-! ## Names from selectors -/

theorem isAsciiAlnum_of_nameFromSelector? {sheet name : Text}
    (h : nameFromSelector? sheet = some name) : ∀ c ∈ name, isAsciiAlnum c = true := by
  rw [nameFromSelector?, Option.map_eq_some_iff] at h
  obtain ⟨selector, -, rfl⟩ := h
  intro c hc
  exact (List.mem_filter.1 hc).2

theorem classSelector?_class {c : CodePoint} {name rest : Text} (hHead : isAsciiLetter c = true)
    (hName : ∀ d ∈ c :: name, isAsciiAlnum d = true) :
    classSelector? (.char '.' :: (c :: name ++ .char ' ' :: rest)) = some (c :: name) := by
  have hTake : (name ++ .char ' ' :: rest).takeWhile isNameChar = name := by
    have hAll : ∀ d ∈ name, isNameChar d = true := by
      intro d hd
      rw [isNameChar, hName d (List.mem_cons_of_mem c hd), Bool.true_or, Bool.true_or]
    rw [List.takeWhile_append_of_pos hAll, List.takeWhile_cons, if_neg (by decide), List.append_nil]
  rw [List.cons_append, classSelector?, if_pos hHead, hTake]

/-- A class of letters and digits at the start of a stylesheet is its first class. -/
theorem nameFromSelector?_class {c : CodePoint} {name rest : Text} (hHead : isAsciiLetter c = true)
    (hName : ∀ d ∈ c :: name, isAsciiAlnum d = true) :
    nameFromSelector? (.char '.' :: (c :: name ++ .char ' ' :: rest)) = some (c :: name) := by
  rw [nameFromSelector?, firstMatch_of_match (classSelector?_class hHead hName), Option.map_some,
    List.filter_eq_self.2 hName]

/-! ## The name -/

theorem isAsciiAlnum_or_mem_default {default sheet : Text} {c : CodePoint}
    (h : c ∈ componentName default sheet) : isAsciiAlnum c = true ∨ c ∈ default := by
  unfold componentName at h
  split at h
  · rename_i name hName
    exact Or.inl (isAsciiAlnum_of_nameFromComment? hName c h)
  · cases hName : nameFromSelector? sheet with
    | none =>
      rw [hName] at h
      exact Or.inr h
    | some name =>
      rw [hName] at h
      exact Or.inl (isAsciiAlnum_of_nameFromSelector? hName c h)

theorem isAsciiAlnum_of_mem_componentName {default : Text}
    (hDefault : ∀ c ∈ default, isAsciiAlnum c = true) (sheet : Text) :
    ∀ c ∈ componentName default sheet, isAsciiAlnum c = true :=
  fun c hc => (isAsciiAlnum_or_mem_default hc).elim id (hDefault c)

theorem componentName_classRule (default : Text) {c : CodePoint} {name rest : Text}
    (hHead : isAsciiLetter c = true) (hName : ∀ d ∈ c :: name, isAsciiAlnum d = true)
    (hComment : hasComment (.char '.' :: (c :: name ++ .char ' ' :: rest)) = false) :
    componentName default (.char '.' :: (c :: name ++ .char ' ' :: rest)) = c :: name := by
  rw [componentName, nameFromComment?_eq_none hComment, nameFromSelector?_class hHead hName]
  rfl

end StyleScaffold.Css
