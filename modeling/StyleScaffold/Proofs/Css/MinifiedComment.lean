import StyleScaffold.Proofs.Css.CommentRemoval
import StyleScaffold.Proofs.Css.LastSemicolon

/-!
# Comments in a minified stylesheet

Minification takes the comments out from left to right and does not look again at what this puts
together. A slash in front of a comment and a star behind it come together, and then they open a
comment. Nothing else that minification does makes a comment or takes one away.

* `hasComment_minify_eq`: only the removal of comments matters.
* `not_hasComment_minify`: a stylesheet that still holds a comment when it is minified.
* `hasComment_minify_iff`: the stylesheets that do are those in which comments part a slash from a
  star (`PartsMark`).
-/

namespace StyleScaffold.Css

open Text

/-- Comments with these contents, one behind another. -/
def commentRun (contents : List Text) : Text := contents.flatMap commentText

/-- Comments stand between a slash and a star that belong to no comment, and a closing is left
behind the star when all comments are taken out. -/
def PartsMark (s : Text) : Prop :=
  ∃ front contents back,
    s = front ++ .char '/' :: (commentRun contents ++ .char '*' :: back) ∧
      insideComment front = false ∧ contents ≠ [] ∧
      (∀ content ∈ contents, afterComment? content = none) ∧
      (afterComment? (withoutComments back)).isSome = true

variable {s t rest tail content : Text}

/-! ## The comments in front of a text -/

/-- The next closing ends a content without one. -/
theorem exists_of_afterComment? (h : afterComment? s = some rest) :
    ∃ content, afterComment? content = none ∧ s = content ++ .char '*' :: .char '/' :: rest := by
  induction s with
  | nil => cases h
  | cons c s ih =>
    unfold afterComment? after? at h
    split at h
    · rename_i found hStrip
      cases h
      exact ⟨[], rfl, by simpa using strip?_eq_some_iff.1 hStrip⟩
    · rename_i hStrip
      obtain ⟨content, hContent, rfl⟩ := ih h
      refine ⟨c :: content, ?_, rfl⟩
      have hNone : strip? ['*', '/'] (c :: content) = none := by
        cases content with
        | nil => simp [strip?]
        | cons d content => simpa [strip?] using hStrip
      rw [afterComment?, after?, hNone]
      exact hContent

theorem insideComment_commentText (h : afterComment? content = none) (s : Text) :
    insideComment (commentText content ++ s) = insideComment s := by
  rw [commentText_append, insideComment]
  split
  · rename_i found hFound
    rw [afterComment?_append_closing h, Option.some.injEq] at hFound
    rw [hFound]
  · rename_i hNone
    rw [afterComment?_append_closing h] at hNone
    contradiction

theorem insideComment_cons {c : CodePoint}
    (h : ∀ rest, c = '/' → s = .char '*' :: rest → False) :
    insideComment (c :: s) = insideComment s := insideComment.eq_3 c s h

theorem commentRun_cons (content : Text) (more : List Text) (s : Text) :
    commentRun (content :: more) ++ s = commentText content ++ (commentRun more ++ s) := by
  rw [commentRun, List.flatMap_cons, List.append_assoc, commentRun]

theorem withoutComments_commentRun {contents : List Text}
    (h : ∀ content ∈ contents, afterComment? content = none) (s : Text) :
    withoutComments (commentRun contents ++ s) = withoutComments s := by
  induction contents with
  | nil => rfl
  | cons content more ih =>
    rw [List.forall_mem_cons] at h
    rw [commentRun_cons, commentText_append,
      withoutComments_of_closed (afterComment?_append_closing h.1 _), ih h.2]

/-- What is left begins with a star where only comments stand in front of a star. -/
theorem exists_of_withoutComments_star (h : withoutComments s = .char '*' :: t) :
    ∃ contents back, s = commentRun contents ++ .char '*' :: back ∧
      (∀ content ∈ contents, afterComment? content = none) ∧ withoutComments back = t := by
  fun_induction withoutComments s with
  | case1 => cases h
  | case2 rest tail hClosed ih =>
    obtain ⟨contents, back, rfl, hContents, hBack⟩ := ih h
    obtain ⟨content, hContent, rfl⟩ := exists_of_afterComment? hClosed
    refine ⟨content :: contents, back, ?_, List.forall_mem_cons.2 ⟨hContent, hContents⟩, hBack⟩
    rw [commentRun_cons, commentText_append]
  | case3 rest hOpen => simp at h
  | case4 c rest hStart ih =>
    obtain ⟨rfl, hRest⟩ := List.cons.inj h
    exact ⟨[], rest, rfl, by simp, hRest⟩

/-! ## Marks that are put together -/

namespace PartsMark

theorem commentText_append (h : PartsMark s) (hContent : afterComment? content = none) :
    PartsMark (commentText content ++ s) := by
  obtain ⟨front, contents, back, rfl, hFront, hRest⟩ := h
  refine ⟨commentText content ++ front, contents, back, by rw [List.append_assoc], ?_, hRest⟩
  rwa [insideComment_commentText hContent]

theorem cons (h : PartsMark s) {c : CodePoint}
    (hStart : ∀ rest, c = '/' → s = .char '*' :: rest → False) : PartsMark (c :: s) := by
  obtain ⟨front, contents, back, rfl, hFront, hRest⟩ := h
  refine ⟨c :: front, contents, back, rfl, ?_, hRest⟩
  rwa [insideComment_cons]
  rintro rest hc rfl
  exact hStart _ hc rfl

theorem hasComment_withoutComments (h : PartsMark s) :
    hasComment (withoutComments s) = true := by
  obtain ⟨front, contents, back, rfl, hFront, hne, hContents, hClosed⟩ := h
  obtain ⟨tail, hTail⟩ := Option.isSome_iff_exists.1 hClosed
  obtain ⟨content, -, hBack⟩ := exists_of_afterComment? hTail
  have hStart : ∀ rest, CodePoint.char '/' = '/' →
      commentRun contents ++ .char '*' :: back = .char '*' :: rest → False := by
    obtain ⟨first, more, rfl⟩ := List.exists_cons_of_ne_nil hne
    simp [commentRun, commentText, ofString]
  have hLeft : withoutComments (front ++ .char '/' :: (commentRun contents ++ .char '*' :: back)) =
      withoutComments front ++ .char '/' :: .char '*' :: withoutComments back := by
    rw [withoutComments_append hFront (by simp), withoutComments_cons hStart,
      withoutComments_commentRun hContents, withoutComments_cons (by simp)]
  rw [hLeft, hBack, hasComment_iff]
  exact ⟨withoutComments front, content, tail, by rw [Css.commentText_append]⟩

end PartsMark

theorem hasComment_withoutComments_iff :
    hasComment (withoutComments s) = true ↔ PartsMark s := by
  refine ⟨fun h => ?_, PartsMark.hasComment_withoutComments⟩
  fun_induction withoutComments s with
  | case1 => contradiction
  | case2 rest tail hClosed ih =>
    obtain ⟨content, hContent, rfl⟩ := exists_of_afterComment? hClosed
    rw [← commentText_append]
    exact (ih h).commentText_append hContent
  | case3 rest hOpen =>
    rw [hasComment, hOpen, hasComment.eq_3 _ _ (by simp),
      hasComment_eq_false_of_afterComment? hOpen] at h
    contradiction
  | case4 c rest hStart ih =>
    by_cases hMark : ∃ t, c = '/' ∧ withoutComments rest = .char '*' :: t
    · obtain ⟨t, rfl, hLeft⟩ := hMark
      rw [hLeft, hasComment, Bool.or_eq_true, ← hLeft] at h
      rcases h with hClosed | hMore
      · obtain ⟨contents, back, rfl, hContents, rfl⟩ := exists_of_withoutComments_star hLeft
        refine ⟨[], contents, back, rfl, by rw [insideComment], ?_, hContents, hClosed⟩
        rintro rfl
        exact hStart back rfl rfl
      · exact (ih hMore).cons hStart
    · rw [hasComment.eq_3 _ _ fun t hc ht => hMark ⟨t, hc, ht⟩] at h
      exact (ih h).cons hStart

/-! ## The minified text -/

theorem hasComment_minify_eq (sheet : Text) :
    hasComment (minify sheet) = hasComment (withoutComments sheet) := by
  rw [minify, hasComment_trim, isRewriting_dropLastSemicolons.hasComment_rewriting,
    (isRewriting_collapse (by decide)).hasComment_rewriting]

/-- Not every minified stylesheet is free of comments: taking `/**/` out makes one of the text
around it. -/
theorem not_hasComment_minify : ¬ ∀ sheet : Text, hasComment (minify sheet) = false := by
  intro h
  have hComment : hasComment (minify "//**/* x */") = true := by decide +kernel
  rw [h] at hComment
  contradiction

/-- The minified stylesheet holds a comment exactly if comments of the stylesheet part a slash from a
star, with a closing left behind the star. -/
theorem hasComment_minify_iff (sheet : Text) :
    hasComment (minify sheet) = true ↔ PartsMark sheet := by
  rw [hasComment_minify_eq, hasComment_withoutComments_iff]

end StyleScaffold.Css
