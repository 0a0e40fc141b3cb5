import StyleScaffold.Css.Comment
import StyleScaffold.Proofs.Text.Pieces
import StyleScaffold.Proofs.Text.Trim

/-!
# Complete comments

A text holds a complete comment when an opening of a comment stands in it and a closing behind
that (`hasComment_iff`).

* `withoutComments_eq_self`: where there is none, taking comments out changes nothing.
* `count_withoutComments_lt`: where there is one, slashes get lost.
* `hasComment_append_left`, `hasComment_append_right`: text without slashes around a text makes
  no comment, although it may hold stars.
-/

namespace StyleScaffold.Css

open Text

/-! ## Marks in a text -/

theorem exists_of_after? {mark s rest : Text} (h : after? mark s = some rest) :
    ∃ a, s = a ++ mark ++ rest := by
  induction s with
  | nil => exact ⟨[], by simpa using strip?_eq_some_iff.1 h⟩
  | cons c cs ih =>
    unfold after? at h
    split at h
    · rename_i found hStrip
      cases h
      exact ⟨[], by simpa using strip?_eq_some_iff.1 hStrip⟩
    · obtain ⟨a, ha⟩ := ih h
      exact ⟨c :: a, by simp [ha]⟩

theorem isSome_after? (mark a b : Text) : (after? mark (a ++ mark ++ b)).isSome = true := by
  have stripSome : ∀ t : Text, strip? mark (mark ++ t) = some t := fun t =>
    strip?_eq_some_iff.2 rfl
  induction a with
  | nil =>
    cases hs : mark ++ b with
    | nil =>
      rw [List.nil_append, hs, after?, ← hs, stripSome]
      rfl
    | cons c cs =>
      rw [List.nil_append, hs, after?, ← hs, stripSome]
      rfl
  | cons c cs ih =>
    rw [List.cons_append, List.cons_append, after?]
    split
    · rfl
    · exact ih

/-- A text that holds a mark holds it behind some text without the mark. -/
theorem exists_of_holds {mark s : Text} (hMark : mark ≠ []) (h : holds mark s = true) :
    ∃ front rest, s = front ++ (mark ++ rest) ∧ holds mark front = false := by
  have hEmpty : holds mark [] = false := by
    cases mark with
    | nil => exact absurd rfl hMark
    | cons c mark => rfl
  induction s with
  | nil =>
    rw [hEmpty] at h
    cases h
  | cons c s ih =>
    cases hStrip : strip? mark (c :: s) with
    | some rest => exact ⟨[], rest, by rw [strip?_eq_some_iff.1 hStrip]; rfl, hEmpty⟩
    | none =>
      rw [holds, after?, hStrip] at h
      obtain ⟨front, rest, rfl, hFront⟩ := ih h
      refine ⟨c :: front, rest, rfl, ?_⟩
      have hNone : strip? mark (c :: front) = none := by
        rw [Option.eq_none_iff_forall_ne_some]
        intro t hSome
        have hEq : c :: (front ++ (mark ++ rest)) = mark ++ (t ++ (mark ++ rest)) := by
          rw [← List.cons_append, strip?_eq_some_iff.1 hSome, List.append_assoc]
        rw [hEq, strip?_eq_some_iff.2 rfl] at hStrip
        cases hStrip
      rw [holds, after?, hNone]
      exact hFront

theorem holds_append (mark a b : Text) : holds mark (a ++ (mark ++ b)) = true := by
  rw [holds, ← List.append_assoc, isSome_after?]

/-- The end of a text without a mark has no mark. -/
theorem holds_eq_false_of_append {mark u s : Text} (h : holds mark (u ++ s) = false) :
    holds mark s = false := by
  rw [Bool.eq_false_iff]
  intro hHolds
  obtain ⟨rest, hAfter⟩ := Option.isSome_iff_exists.1 hHolds
  obtain ⟨a, rfl⟩ := exists_of_after? hAfter
  rw [List.append_assoc, ← List.append_assoc u, holds_append] at h
  cases h

/-! ## Complete comments -/

/-- A comment with its content. -/
def commentText (content : Text) : Text := "/*" ++ content ++ "*/"

theorem commentText_append (content s : Text) :
    commentText content ++ s =
      .char '/' :: .char '*' :: (content ++ .char '*' :: .char '/' :: s) := by
  simp [commentText, ofString]

theorem afterComment?_append (content s : Text) :
    (afterComment? (content ++ .char '*' :: .char '/' :: s)).isSome = true := by
  simpa [afterComment?] using isSome_after? ['*', '/'] content s

theorem hasComment_cons_of_hasComment {s : Text} (c : CodePoint) (h : hasComment s = true) :
    hasComment (c :: s) = true := by
  unfold hasComment
  split
  · contradiction
  · rename_i hEq
    cases hEq
    rw [h, Bool.or_true]
  · rename_i hEq
    cases hEq
    exact h

theorem hasComment_iff {s : Text} :
    hasComment s = true ↔ ∃ u c v, s = u ++ (commentText c ++ v) := by
  constructor
  · intro h
    fun_induction hasComment s with
    | case1 => contradiction
    | case2 rest ih =>
      cases hAfter : afterComment? rest with
      | some tail =>
        obtain ⟨c, hc⟩ := exists_of_after? hAfter
        exact ⟨[], c, tail, by rw [hc, commentText_append]; simp⟩
      | none =>
        obtain ⟨u, c, v, hEq⟩ := ih (by simpa [hAfter] using h)
        exact ⟨'/' :: u, c, v, by rw [hEq]; rfl⟩
    | case3 d rest _ ih =>
      obtain ⟨u, c, v, hEq⟩ := ih h
      exact ⟨d :: u, c, v, by rw [hEq]; rfl⟩
  · rintro ⟨u, c, v, rfl⟩
    induction u with
    | nil =>
      rw [List.nil_append, commentText_append, hasComment, afterComment?_append, Bool.true_or]
    | cons d u ih => exact hasComment_cons_of_hasComment d ih

theorem hasComment_of_holds {s : Text} (h : holds "/*" s = false) : hasComment s = false := by
  rw [Bool.eq_false_iff]
  intro hComment
  obtain ⟨u, content, v, rfl⟩ := hasComment_iff.1 hComment
  rw [commentText, List.append_assoc, List.append_assoc, holds_append] at h
  contradiction

theorem hasComment_of_append {u s v : Text} (h : hasComment (u ++ s ++ v) = false) :
    hasComment s = false := by
  rw [Bool.eq_false_iff]
  intro hComment
  obtain ⟨a, content, b, rfl⟩ := hasComment_iff.1 hComment
  rw [Bool.eq_false_iff] at h
  exact h (hasComment_iff.2 ⟨u ++ a, content, b ++ v, by simp⟩)

theorem hasComment_eq_false_of_afterComment? {s : Text} (h : afterComment? s = none) :
    hasComment s = false := by
  rw [Bool.eq_false_iff]
  intro hComment
  obtain ⟨u, c, v, rfl⟩ := hasComment_iff.1 hComment
  have hSome := afterComment?_append (u ++ .char '/' :: .char '*' :: c) v
  rw [List.append_assoc, List.cons_append, List.cons_append, ← commentText_append, h] at hSome
  contradiction

/-! ## Taking comments out -/

theorem withoutComments_eq_self {s : Text} (h : hasComment s = false) : withoutComments s = s := by
  fun_induction withoutComments s with
  | case1 => rfl
  | case2 rest tail hClosed _ => simp [hasComment, hClosed] at h
  | case3 rest hClosed => rfl
  | case4 c rest hOpen ih =>
    rw [hasComment.eq_3 _ _ hOpen] at h
    rw [ih h]

theorem withoutComments_sublist (s : Text) : (withoutComments s).Sublist s := by
  fun_induction withoutComments s with
  | case1 => exact List.Sublist.refl []
  | case2 rest tail hClosed ih =>
    obtain ⟨c, rfl⟩ := exists_of_after? hClosed
    exact ((ih.trans (List.sublist_append_right _ tail)).cons _).cons _
  | case3 rest hClosed => exact List.Sublist.refl _
  | case4 c rest hOpen ih => exact ih.cons_cons c

/-- A comment that is taken out takes its slashes with it. -/
theorem count_withoutComments_lt {s : Text} (h : hasComment s = true) :
    (withoutComments s).count ('/' : CodePoint) < s.count ('/' : CodePoint) := by
  fun_induction withoutComments s with
  | case1 => contradiction
  | case2 rest tail hClosed _ =>
    obtain ⟨c, rfl⟩ := exists_of_after? hClosed
    have hTail := (withoutComments_sublist tail).count_le ('/' : CodePoint)
    simp only [List.count_cons, List.count_append]
    simp only [beq_self_eq_true, if_true]
    omega
  | case3 rest hClosed =>
    have hRest := hasComment_eq_false_of_afterComment? hClosed
    rw [hasComment, hClosed, Option.isSome_none, Bool.false_or, hasComment.eq_3] at h
    · rw [hRest] at h
      contradiction
    · simp
  | case4 c rest hOpen ih =>
    rw [hasComment.eq_3 _ _ hOpen] at h
    rw [List.count_cons, List.count_cons]
    have := ih h
    omega

/-! ## Text around a text -/

theorem hasComment_append_left {u : Text} (hu : ('/' : CodePoint) ∉ u) (s : Text) :
    hasComment (u ++ s) = hasComment s := by
  induction u with
  | nil => rfl
  | cons c u ih =>
    rw [List.mem_cons, not_or] at hu
    rw [List.cons_append, hasComment.eq_3, ih hu.2]
    intro rest hc
    exact absurd hc.symm hu.1

theorem hasComment_append_right {v : Text} (hv : ('/' : CodePoint) ∉ v) (s : Text) :
    hasComment (s ++ v) = hasComment s := by
  rw [Bool.eq_iff_iff, hasComment_iff, hasComment_iff]
  constructor
  · rintro ⟨u, c, w, hEq⟩
    have hClosing :
        s ++ v = u ++ .char '/' :: .char '*' :: (c ++ [.char '*']) ++ .char '/' :: w := by
      rw [hEq, commentText_append]
      simp
    rcases append_eq_append_cons hClosing with ⟨t, ht, -⟩ | ⟨t, -, ht⟩
    · exact ⟨u, c, t, by rw [ht, commentText_append]; simp⟩
    · exact (hv (by simp [ht])).elim
  · rintro ⟨u, c, w, rfl⟩
    exact ⟨u, c, w ++ v, by simp⟩

theorem hasComment_trim (s : Text) : hasComment (trim s) = hasComment s := by
  have hSlash : isBlank (.char '/') = false := by decide
  refine apply_trim ?_ ?_ s
  · intro w hw s
    exact hasComment_append_left (not_mem_of_allBlank hw hSlash) s
  · intro w hw s
    exact hasComment_append_right (not_mem_of_allBlank hw hSlash) s

end StyleScaffold.Css
