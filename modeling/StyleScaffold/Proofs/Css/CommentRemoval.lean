import StyleScaffold.Proofs.Css.Comment
import StyleScaffold.Proofs.Text.Trim

/-!
# Taking comments out of the parts of a text

Behind an opening only the next closing matters, and in front of one nothing is lost. So comments
can be taken out part by part, as long as no mark of a comment lies across the cut.

* `withoutComments_append`, `exists_withoutComments_of_insideComment`: behind a text it matters only
  whether the text ends inside a comment.
* `withoutComments_commentText`: a comment leaves no trace of what is in it, unless the text in
  front of it ends inside another comment.
* `withoutComments_append_left`, `withoutComments_append_right`: blanks at the ends stay.
* `withoutComments_gap`: blanks elsewhere are lost with the comment around them, or they stay
  where they are, and which of the two it is depends on the text around them only.
-/

namespace StyleScaffold.Css

open Text

/-- Whether the text ends behind an opening that has no closing. -/
def insideComment : Text → Bool
  | [] => false
  | '/' :: '*' :: rest =>
    match _closed : afterComment? rest with
    | some tail => insideComment tail
    | none => true
  | _ :: rest => insideComment rest
termination_by s => s.length
decreasing_by
  · have := length_lt_of_after? (by simp) _closed
    simp only [List.length_cons]; omega
  · simp

/-! ## The next closing -/

/-- No closing lies across the end of a text without one, if no slash follows. -/
theorem afterComment?_append_of_none {s t : Text} (hs : afterComment? s = none)
    (ht : ∀ c ∈ t.head?, c ≠ '/') : afterComment? (s ++ t) = afterComment? t := by
  induction s with
  | nil => rfl
  | cons c s ih =>
    unfold afterComment? after? at hs
    split at hs
    · cases hs
    · rename_i hStrip
      -- a closing at the cut would have its star in front and its slash behind
      have hNone : strip? ['*', '/'] (c :: (s ++ t)) = none := by
        cases s with
        | nil =>
          cases t with
          | nil => exact hStrip
          | cons d t => simp [strip?, (ht d rfl).symm]
        | cons d s => simpa [strip?] using hStrip
      rw [List.cons_append, afterComment?, after?, hNone]
      exact ih hs

theorem afterComment?_append_closing {content : Text} (h : afterComment? content = none)
    (s : Text) : afterComment? (content ++ .char '*' :: .char '/' :: s) = some s := by
  rw [afterComment?_append_of_none h (by simp)]
  rfl

/-- The next closing is the same whatever follows. -/
theorem afterComment?_append_of_some {s rest : Text} (h : afterComment? s = some rest)
    (t : Text) : afterComment? (s ++ t) = some (rest ++ t) := by
  induction s with
  | nil => cases h
  | cons c s ih =>
    unfold afterComment? after? at h
    rw [List.cons_append, afterComment?, after?]
    split at h
    · rename_i found hStrip
      cases h
      have hSome : strip? ['*', '/'] (c :: (s ++ t)) = some (rest ++ t) := by
        rw [strip?_eq_some_iff] at hStrip ⊢
        rw [← List.cons_append, hStrip, List.append_assoc]
      rw [hSome]
    · rename_i hStrip
      have hNone : strip? ['*', '/'] (c :: (s ++ t)) = none := by
        cases s with
        | nil => cases h
        | cons d s => simpa [strip?] using hStrip
      rw [hNone]
      exact ih h

/-- Blanks hold neither half of a mark. -/
theorem afterComment?_append_blank {s w : Text} (hs : afterComment? s = none) (hw : w ≠ [])
    (hBlank : allBlank w = true) (t : Text) : afterComment? (s ++ (w ++ t)) = afterComment? t := by
  have hHead : ∀ c ∈ (w ++ t).head?, c ≠ '/' := by
    obtain ⟨d, w, rfl⟩ := List.exists_cons_of_ne_nil hw
    rintro c hc rfl
    obtain rfl : d = '/' := by simpa using hc
    exact not_mem_of_allBlank hBlank (by decide) List.mem_cons_self
  rw [afterComment?_append_of_none hs hHead]
  clear hs hw hHead
  induction w with
  | nil => rfl
  | cons d w ih =>
    rw [allBlank_cons, Bool.and_eq_true] at hBlank
    have hne : d ≠ '*' := by
      rintro rfl
      exact absurd hBlank.1 (by decide)
    have hNone : strip? ['*', '/'] (d :: (w ++ t)) = none := by simp [strip?, hne.symm]
    rw [List.cons_append, afterComment?, after?, hNone]
    exact ih hBlank.2

/-! ## One step -/

theorem withoutComments_of_closed {rest tail : Text} (h : afterComment? rest = some tail) :
    withoutComments (.char '/' :: .char '*' :: rest) = withoutComments tail := by
  rw [withoutComments]
  split
  · rename_i found hFound
    rw [h, Option.some.injEq] at hFound
    rw [hFound]
  · rename_i hNone
    rw [h] at hNone
    contradiction

theorem withoutComments_of_unclosed {rest : Text} (h : afterComment? rest = none) :
    withoutComments (.char '/' :: .char '*' :: rest) = .char '/' :: .char '*' :: rest := by
  rw [withoutComments]
  split
  · rename_i hSome
    rw [h] at hSome
    contradiction
  · rfl

/-- No comment is opened where a star does not follow a slash. -/
theorem withoutComments_cons {c : CodePoint} {s : Text}
    (h : ∀ rest, c = '/' → s = .char '*' :: rest → False) :
    withoutComments (c :: s) = c :: withoutComments s := withoutComments.eq_3 c s h

/-- Where a text does not open a comment, nothing that follows a text behind it does. -/
theorem withoutComments_cons_append {c : CodePoint} {s t : Text}
    (h : ∀ rest, c = '/' → s = .char '*' :: rest → False) (ht : ∀ d ∈ t.head?, d ≠ '*') :
    withoutComments (c :: (s ++ t)) = c :: withoutComments (s ++ t) := by
  apply withoutComments_cons
  intro rest hc hStar
  cases s with
  | nil =>
    rw [List.nil_append] at hStar
    exact ht (.char '*') (by simp [hStar]) rfl
  | cons d s =>
    rw [List.cons_append, List.cons.injEq] at hStar
    exact h s hc (by rw [hStar.1])

/-! ## Two texts -/

/-- Behind a text that does not end inside a comment, comments are taken out as anywhere, unless a
star comes next. -/
theorem withoutComments_append {s t : Text} (hs : insideComment s = false)
    (ht : ∀ c ∈ t.head?, c ≠ '*') :
    withoutComments (s ++ t) = withoutComments s ++ withoutComments t := by
  fun_induction insideComment s with
  | case1 => rw [withoutComments.eq_1, List.nil_append, List.nil_append]
  | case2 rest tail hClosed ih =>
    rw [List.cons_append, List.cons_append,
      withoutComments_of_closed (afterComment?_append_of_some hClosed t),
      withoutComments_of_closed hClosed, ih hs]
  | case3 rest hClosed => cases hs
  | case4 c rest hStart ih =>
    rw [List.cons_append, withoutComments_cons_append hStart ht, withoutComments_cons hStart, ih hs,
      List.cons_append]

/-- Behind a text that ends inside a comment, everything up to the next closing is lost. -/
theorem exists_withoutComments_of_insideComment {s : Text} (hs : insideComment s = true) :
    ∃ front, ∀ content t, afterComment? content = none →
      (∀ c ∈ content.head?, c ≠ '*' ∧ c ≠ '/') → content ≠ [] →
        withoutComments (s ++ (content ++ .char '*' :: .char '/' :: t)) =
          front ++ withoutComments t := by
  fun_induction insideComment s with
  | case1 => cases hs
  | case2 rest tail hClosed ih =>
    obtain ⟨front, hFront⟩ := ih hs
    refine ⟨front, fun content t hContent hHead hne => ?_⟩
    rw [List.cons_append, List.cons_append,
      withoutComments_of_closed (afterComment?_append_of_some hClosed _),
      hFront content t hContent hHead hne]
  | case3 rest hOpen =>
    refine ⟨[], fun content t hContent hHead hne => ?_⟩
    obtain ⟨c, more, rfl⟩ := List.exists_cons_of_ne_nil hne
    have hSlash : ∀ d ∈ (c :: more ++ .char '*' :: .char '/' :: t).head?, d ≠ '/' := by
      simpa using (hHead c rfl).2
    rw [List.cons_append, List.cons_append, List.nil_append]
    exact withoutComments_of_closed ((afterComment?_append_of_none hOpen hSlash).trans
      (afterComment?_append_closing hContent t))
  | case4 c rest hStart ih =>
    obtain ⟨front, hFront⟩ := ih hs
    refine ⟨c :: front, fun content t hContent hHead hne => ?_⟩
    obtain ⟨d, more, rfl⟩ := List.exists_cons_of_ne_nil hne
    have hStar : ∀ e ∈ (d :: more ++ .char '*' :: .char '/' :: t).head?, e ≠ '*' := by
      simpa using (hHead d rfl).1
    rw [List.cons_append, withoutComments_cons_append hStart hStar,
      hFront _ t hContent hHead hne, List.cons_append]

theorem withoutComments_commentText {begun content : Text} (hBegun : insideComment begun = false)
    (hContent : afterComment? content = none) (s : Text) :
    withoutComments (begun ++ (commentText content ++ s)) =
      withoutComments begun ++ withoutComments s := by
  have hHead : ∀ d ∈ (commentText content ++ s).head?, d ≠ '*' := by
    rw [commentText_append]
    simp
  rw [withoutComments_append hBegun hHead, commentText_append,
    withoutComments_of_closed (afterComment?_append_closing hContent s)]

/-! ## Blanks -/

theorem ne_star_of_head_append {w : Text} (hw : w ≠ []) (hBlank : allBlank w = true) (s : Text) :
    ∀ c ∈ (w ++ s).head?, c ≠ '*' := by
  obtain ⟨d, w, rfl⟩ := List.exists_cons_of_ne_nil hw
  rintro c hc rfl
  obtain rfl : d = '*' := by simpa using hc
  exact not_mem_of_allBlank hBlank (by decide) List.mem_cons_self

theorem withoutComments_append_left {w : Text} (hw : allBlank w = true) (s : Text) :
    withoutComments (w ++ s) = w ++ withoutComments s := by
  induction w with
  | nil => rfl
  | cons c w ih =>
    rw [allBlank_cons, Bool.and_eq_true] at hw
    have hStart : ∀ rest, c = '/' → w ++ s = .char '*' :: rest → False := by
      rintro _ rfl -
      exact absurd hw.1 (by decide)
    rw [List.cons_append, withoutComments_cons hStart, ih hw.2, List.cons_append]

theorem withoutComments_gap (a b : Text) :
    (∃ front back, ∀ w, w ≠ [] → allBlank w = true →
      withoutComments (a ++ (w ++ b)) = front ++ (w ++ back)) ∨
    ∃ rest, ∀ w, w ≠ [] → allBlank w = true → withoutComments (a ++ (w ++ b)) = rest := by
  fun_induction withoutComments a with
  | case1 =>
    refine Or.inl ⟨[], withoutComments b, ?_⟩
    intro w _ hBlank
    exact withoutComments_append_left hBlank b
  | case2 rest tail hClosed ih =>
    have hStep : ∀ t, withoutComments (.char '/' :: .char '*' :: rest ++ t) =
        withoutComments (tail ++ t) :=
      fun t => withoutComments_of_closed (afterComment?_append_of_some hClosed t)
    simp only [hStep]
    exact ih
  | case3 rest hOpen =>
    cases hb : afterComment? b with
    | none =>
      refine Or.inl ⟨.char '/' :: .char '*' :: rest, b, ?_⟩
      intro w hw hBlank
      exact withoutComments_of_unclosed ((afterComment?_append_blank hOpen hw hBlank b).trans hb)
    | some tail =>
      refine Or.inr ⟨withoutComments tail, ?_⟩
      intro w hw hBlank
      exact withoutComments_of_closed ((afterComment?_append_blank hOpen hw hBlank b).trans hb)
  | case4 c rest hStart ih =>
    have hStep : ∀ w, w ≠ [] → allBlank w = true →
        withoutComments (c :: rest ++ (w ++ b)) = c :: withoutComments (rest ++ (w ++ b)) :=
      fun w hw hBlank => withoutComments_cons_append hStart (ne_star_of_head_append hw hBlank b)
    rcases ih with ⟨front, back, h⟩ | ⟨text, h⟩
    · refine Or.inl ⟨c :: front, back, ?_⟩
      intro w hw hBlank
      rw [hStep w hw hBlank, h w hw hBlank, List.cons_append]
    · refine Or.inr ⟨c :: text, ?_⟩
      intro w hw hBlank
      rw [hStep w hw hBlank, h w hw hBlank]

theorem withoutComments_append_right {w : Text} (hw : allBlank w = true) (s : Text) :
    withoutComments (s ++ w) = withoutComments s ++ w := by
  by_cases hNil : w = []
  · rw [hNil, List.append_nil, List.append_nil]
  fun_induction withoutComments s with
  | case1 => simpa [withoutComments] using withoutComments_append_left hw []
  | case2 rest tail hClosed ih =>
    rw [← ih]
    exact withoutComments_of_closed (afterComment?_append_of_some hClosed w)
  | case3 rest hOpen =>
    have hNone : afterComment? (rest ++ w) = none := by
      rw [← List.append_nil w, afterComment?_append_blank hOpen hNil hw]
      rfl
    exact withoutComments_of_unclosed hNone
  | case4 c rest hStart ih =>
    have hHead : ∀ d ∈ w.head?, d ≠ '*' := by
      simpa using ne_star_of_head_append hNil hw []
    rw [List.cons_append, withoutComments_cons_append hStart hHead, ih, List.cons_append]

end StyleScaffold.Css
