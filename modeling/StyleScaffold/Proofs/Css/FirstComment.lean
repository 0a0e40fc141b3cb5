import StyleScaffold.Proofs.Css.ComponentName

/-!
# The first comment

The comment that names a component is looked for by its own rule: it is the first one that is
plain. An empty comment and one with a star in it are passed over, and the search goes on behind
their opening, where it may find an inner opening or a later comment.

* `exists_isFirstComment`: where a text holds a comment, its first opening begins one.
* `nameFromComment?_firstComment`: what gives the name if the first comment is plain, and if not.
* `nameFromComment?_append_iff`: the first comments behind which nothing is looked at.
* `componentName_firstComment_iff`: whether a component is named after the first comment.
-/

namespace StyleScaffold.Css

open Text

/-! ## The comment and what is around it -/

/-- A text as its first comment with what is around it: no opening is in front of the comment, and
no closing is in it. -/
structure IsFirstComment (sheet front body rest : Text) : Prop where
  text : sheet = front ++ (commentText body ++ rest)
  opens : holds "/*" front = false
  closes : holds "*/" body = false

theorem exists_isFirstComment {sheet : Text} (h : hasComment sheet = true) :
    ∃ front body rest, IsFirstComment sheet front body rest := by
  fun_induction hasComment sheet with
  | case1 => cases h
  | case2 rest ih =>
    cases hAfter : afterComment? rest with
    | some tail =>
      have hHolds : holds "*/" rest = true := by
        rw [holds, Option.isSome_iff_exists]
        exact ⟨tail, hAfter⟩
      obtain ⟨body, behind, rfl, hBody⟩ := exists_of_holds (by decide) hHolds
      exact ⟨[], body, behind, by simp [commentText_append, ofString], rfl, hBody⟩
    | none =>
      have hStar : hasComment ('*' :: rest) = hasComment rest := rfl
      rw [hAfter, hStar, hasComment_eq_false_of_afterComment? hAfter] at h
      cases h
  | case3 c rest hOpening ih =>
    obtain ⟨front, body, behind, rfl, hFront, hBody⟩ := ih h
    refine ⟨c :: front, body, behind, rfl, ?_, hBody⟩
    have hNone : strip? "/*" (c :: front) = none := by
      rw [Option.eq_none_iff_forall_ne_some]
      intro t hSome
      have hEq : c :: front = .char '/' :: .char '*' :: t := strip?_eq_some_iff.1 hSome
      obtain ⟨rfl, rfl⟩ := List.cons.inj hEq
      exact hOpening _ rfl rfl
    rw [holds, after?, hNone]
    exact hFront

theorem holds_closing_of_not_mem {s : Text} (h : .char '*' ∉ s) : holds "*/" s = false := by
  rw [Bool.eq_false_iff]
  intro hHolds
  obtain ⟨front, rest, rfl, -⟩ := exists_of_holds (by decide) hHolds
  exact h (List.mem_append_right front List.mem_cons_self)

/-- The part of a text in front of its first closing is determined. -/
theorem append_closing_inj {a b s t : Text} (ha : holds "*/" a = false) (hb : holds "*/" b = false)
    (h : a ++ ("*/" ++ s) = b ++ ("*/" ++ t)) : a = b ∧ s = t := by
  have hPart : ∀ {a b s t : Text}, holds "*/" (a ++ b) = false → b ++ ("*/" ++ s) = "*/" ++ t →
      b = [] := by
    intro a b s t hNone hEq
    match b, hEq with
    | [], _ => rfl
    | [c], hEq => cases hEq
    | c :: d :: b, hEq =>
      have hMark : c :: d :: b = "*/" ++ b := by
        cases hEq
        rfl
      rw [hMark, holds_append] at hNone
      cases hNone
  rcases List.append_eq_append_iff.1 h with ⟨e, rfl, hRest⟩ | ⟨e, rfl, hRest⟩
  · obtain rfl := hPart hb hRest.symm
    exact ⟨(List.append_nil a).symm, List.append_cancel_left hRest⟩
  · obtain rfl := hPart ha hRest.symm
    exact ⟨List.append_nil b, (List.append_cancel_left hRest).symm⟩

/-! ## The search -/

/-- A comment that is not plain is not found. -/
theorem plainComment?_eq_none {body : Text} (hBody : holds "*/" body = false)
    (h : ¬ IsPlainContent body) (rest : Text) :
    plainComment? (commentText body ++ rest) = none := by
  rw [Option.eq_none_iff_forall_ne_some]
  intro content hMatch
  obtain ⟨c, behind, hEq, hPlain, -⟩ := exists_of_plainComment? hMatch
  rw [commentText, commentText, List.append_assoc, List.append_assoc, List.append_assoc,
    List.append_assoc] at hEq
  obtain ⟨rfl, -⟩ := append_closing_inj hBody (holds_closing_of_not_mem hPlain.2)
    (List.append_cancel_left hEq)
  exact h hPlain

/-- A comment that is found in front of a slash begins with an opening in front of it. -/
theorem exists_opening_of_plainComment? {u s content : Text} (hu : u ≠ [])
    (h : plainComment? (u ++ .char '/' :: s) = some content) : ∃ v, u = "/*" ++ v := by
  obtain ⟨c, rest, hEq, -⟩ := exists_of_plainComment? h
  rw [commentText_append] at hEq
  match u, hu, hEq with
  | [c], _, hEq => cases hEq
  | c :: d :: v, _, hEq =>
    obtain ⟨rfl, hRest⟩ := List.cons.inj hEq
    obtain ⟨rfl, -⟩ := List.cons.inj hRest
    exact ⟨v, rfl⟩

/-- The search passes over a text if what opens in it is not plain. -/
theorem firstMatch_plainComment?_append {front s : Text}
    (h : ∀ a b, front = a ++ ("/*" ++ b) → plainComment? ("/*" ++ b ++ .char '/' :: s) = none) :
    firstMatch plainComment? (front ++ .char '/' :: s) =
      firstMatch plainComment? (.char '/' :: s) := by
  induction front with
  | nil => rfl
  | cons c front ih =>
    have hNone : plainComment? (c :: front ++ .char '/' :: s) = none := by
      rw [Option.eq_none_iff_forall_ne_some]
      intro content hMatch
      obtain ⟨b, hb⟩ := exists_opening_of_plainComment? (List.cons_ne_nil c front) hMatch
      rw [hb, h [] b hb] at hMatch
      cases hMatch
    rw [List.cons_append, firstMatch, ← List.cons_append, hNone]
    exact ih fun a b hEq => h (c :: a) b (by rw [hEq]; rfl)

/-- What is written in front of the first opening does not matter. -/
theorem firstMatch_plainComment?_front {front : Text} (h : holds "/*" front = false)
    (body rest : Text) : firstMatch plainComment? (front ++ (commentText body ++ rest)) =
      firstMatch plainComment? (commentText body ++ rest) := by
  rw [commentText_append]
  refine firstMatch_plainComment?_append fun a b hEq => ?_
  rw [hEq, holds_append] at h
  cases h

/-- If the first comment is plain then it names, and else the search goes on behind its opening. -/
theorem nameFromComment?_firstComment {front body : Text} (hFront : holds "/*" front = false)
    (hBody : holds "*/" body = false) (rest : Text) :
    (IsPlainContent body →
      nameFromComment? (front ++ (commentText body ++ rest)) = contentName? (trim body)) ∧
      (¬ IsPlainContent body → nameFromComment? (front ++ (commentText body ++ rest)) =
        nameFromComment? (body ++ ("*/" ++ rest))) := by
  rw [nameFromComment?_eq, firstMatch_plainComment?_front hFront]
  refine ⟨fun hPlain => ?_, fun hPlain => ?_⟩
  · rw [firstMatch_of_match (plainComment?_commentText hPlain rest)]
    rfl
  · have hNone := plainComment?_eq_none hBody hPlain rest
    rw [commentText_append] at hNone ⊢
    rw [firstMatch, hNone]
    rfl

/-- An inner opening with plain content behind it. -/
def HoldsPlainComment (body : Text) : Prop :=
  ∃ a c, body = a ++ ("/*" ++ c) ∧ IsPlainContent c

theorem not_isPlainContent_opening (a c : Text) : ¬ IsPlainContent (a ++ ("/*" ++ c)) := by
  intro h
  have hStar : .char '*' ∈ ("/*" ++ c : Text) := List.mem_cons_of_mem _ List.mem_cons_self
  exact h.2 (List.mem_append_right a hStar)

theorem nameFromComment?_of_holdsPlainComment {a c : Text}
    (hBody : holds "*/" (a ++ ("/*" ++ c)) = false) (h : IsPlainContent c) (rest : Text) :
    nameFromComment? (a ++ ("/*" ++ c) ++ ("*/" ++ rest)) = contentName? (trim c) := by
  have hText : a ++ ("/*" ++ c) ++ ("*/" ++ rest) = a ++ (commentText c ++ rest) := by
    rw [commentText]
    simp only [List.append_assoc]
  have hPass : firstMatch plainComment? (a ++ (commentText c ++ rest)) =
      firstMatch plainComment? (commentText c ++ rest) := by
    rw [commentText_append]
    refine firstMatch_plainComment?_append fun u v hEq => ?_
    -- An earlier opening has the star of the last one behind it.
    have hClosing : holds "*/" (v ++ ("/*" ++ c)) = false := by
      rw [hEq, List.append_assoc, List.append_assoc] at hBody
      exact holds_eq_false_of_append (holds_eq_false_of_append hBody)
    have hNone := plainComment?_eq_none hClosing (not_isPlainContent_opening v c) rest
    simpa [commentText, ofString] using hNone
  rw [nameFromComment?_eq, hText, hPass, firstMatch_of_match (plainComment?_commentText h rest)]
  rfl

/-- Without such an opening nothing is found up to the closing, unless the star of the closing opens
something. -/
theorem firstMatch_plainComment?_closing {body s : Text} (hBody : holds "*/" body = false)
    (h : ¬ HoldsPlainComment body)
    (hs : plainComment? (.char '/' :: .char '*' :: .char '/' :: s) = none) :
    firstMatch plainComment? (body ++ ("*/" ++ s)) = firstMatch plainComment? (.char '/' :: s) := by
  have hText : (body ++ ("*/" ++ s) : Text) = body ++ [.char '*'] ++ .char '/' :: s := by
    rw [List.append_assoc]
    rfl
  rw [hText]
  refine firstMatch_plainComment?_append fun a b hEq => ?_
  -- The star of an opening is in the body, or it is that of the closing.
  rcases List.append_eq_append_iff.1 hEq with ⟨e, -, hRest⟩ | ⟨e, rfl, hRest⟩
  · obtain _ | ⟨c, _ | ⟨d, v⟩⟩ := e <;> cases hRest
  · obtain _ | ⟨c, _ | ⟨d, v⟩⟩ := e
    · cases hRest
    · cases hRest
      exact hs
    · change .char '/' :: .char '*' :: b = c :: d :: (v ++ [.char '*']) at hRest
      obtain ⟨rfl, hTail⟩ := List.cons.inj hRest
      obtain ⟨rfl, rfl⟩ := List.cons.inj hTail
      have hInner : ¬ IsPlainContent v := fun hPlain => h ⟨a, v, rfl, hPlain⟩
      have hClosing : holds "*/" v = false :=
        holds_eq_false_of_append (u := "/*") (holds_eq_false_of_append hBody)
      have hNone := plainComment?_eq_none hClosing hInner s
      simpa [commentText, ofString] using hNone

/-- No text behind the first comment is looked at just if the search ends in the comment. -/
theorem nameFromComment?_append_iff {front body : Text} (hFront : holds "/*" front = false)
    (hBody : holds "*/" body = false) :
    (∀ behind behind', nameFromComment? (front ++ (commentText body ++ behind)) =
        nameFromComment? (front ++ (commentText body ++ behind'))) ↔
      IsPlainContent body ∨ HoldsPlainComment body := by
  have hSearch := nameFromComment?_firstComment hFront hBody
  constructor
  · intro hSame
    by_cases hPlain : IsPlainContent body
    · exact Or.inl hPlain
    · refine Or.inr (Classical.byContradiction fun hInner => ?_)
      have hLater := hSame [] (commentText "A")
      rw [(hSearch _).2 hPlain, (hSearch _).2 hPlain, nameFromComment?_eq, nameFromComment?_eq,
        firstMatch_plainComment?_closing hBody hInner (by decide),
        firstMatch_plainComment?_closing hBody hInner (by decide)] at hLater
      exact absurd hLater (by decide)
  · rintro (hPlain | ⟨a, c, rfl, hPlain⟩) behind behind'
    · rw [(hSearch _).1 hPlain, (hSearch _).1 hPlain]
    · have hStar := not_isPlainContent_opening a c
      rw [(hSearch _).2 hStar, (hSearch _).2 hStar,
        nameFromComment?_of_holdsPlainComment hBody hPlain,
        nameFromComment?_of_holdsPlainComment hBody hPlain]

/-! ## The name -/

/-- The name of a component to which its comments give a name or none. -/
def nameGiven (given? : Option Text) (default sheet : Text) : Text :=
  given?.getD ((nameFromSelector? sheet).getD default)

theorem componentName_eq (default sheet : Text) :
    componentName default sheet = nameGiven (nameFromComment? sheet) default sheet := by
  rw [componentName, nameGiven]
  cases nameFromComment? sheet <;> rfl

/-- An empty comment in front of one that names. -/
def emptyFirst : Text := "/**/ /* Hero */ .x"

theorem isFirstComment_emptyFirst : IsFirstComment emptyFirst [] [] " /* Hero */ .x" :=
  ⟨rfl, rfl, rfl⟩

theorem not_componentName_firstComment :
    ¬ ∀ default sheet front body rest, IsFirstComment sheet front body rest →
      componentName default sheet = nameGiven (contentName? (trim body)) default sheet := by
  intro h
  have hName := h "Component" emptyFirst [] [] _ isFirstComment_emptyFirst
  exact absurd hName (by decide)

/-- A text with a comment has a first one. The component has the name that this comment gives, or
without one that of the first class or the default, just if the comment is plain or the search
behind its opening ends with the same name. And just if the comment is plain or holds a plain one,
no text behind it is looked at. -/
theorem componentName_firstComment_iff {sheet : Text} (h : hasComment sheet = true) :
    (∃ front body rest, IsFirstComment sheet front body rest) ∧
      ∀ front body rest, IsFirstComment sheet front body rest →
        (∀ default,
          componentName default sheet = nameGiven (contentName? (trim body)) default sheet ↔
            IsPlainContent body ∨
              nameGiven (nameFromComment? (body ++ ("*/" ++ rest))) default sheet =
                nameGiven (contentName? (trim body)) default sheet) ∧
        ((∀ behind behind', nameFromComment? (front ++ (commentText body ++ behind)) =
            nameFromComment? (front ++ (commentText body ++ behind'))) ↔
          IsPlainContent body ∨ HoldsPlainComment body) := by
  refine ⟨exists_isFirstComment h, fun front body rest hFirst =>
    ⟨fun default => ?_, nameFromComment?_append_iff hFirst.opens hFirst.closes⟩⟩
  obtain ⟨hNames, hSearch⟩ := nameFromComment?_firstComment hFirst.opens hFirst.closes rest
  rw [← hFirst.text] at hNames hSearch
  rw [componentName_eq]
  by_cases hPlain : IsPlainContent body
  · rw [hNames hPlain]
    exact iff_of_true rfl (Or.inl hPlain)
  · rw [hSearch hPlain, or_iff_right hPlain]

/-- A layout note in front of a comment that would name. -/
def layoutFirst : Text := "/* Auto layout */ /* Hero */ .x"

theorem componentName_firstComment_hero :
    componentName "Component" layoutFirst = "x" ∧ componentName "Component" emptyFirst ≠ "x" := by
  constructor
  · obtain ⟨-, hFound⟩ := componentName_firstComment_iff (by decide : hasComment layoutFirst = true)
    have hFirst : IsFirstComment layoutFirst [] " Auto layout " " /* Hero */ .x" :=
      ⟨rfl, rfl, rfl⟩
    exact ((hFound _ _ _ hFirst).1 "Component").2 (Or.inl ⟨by decide, by decide⟩)
  · obtain ⟨-, hFound⟩ := componentName_firstComment_iff (by decide : hasComment emptyFirst = true)
    intro hName
    rcases ((hFound _ _ _ isFirstComment_emptyFirst).1 "Component").1 hName with hPlain | hSame
    · exact hPlain.1 rfl
    · exact absurd hSame (by decide)

end StyleScaffold.Css
