import StyleScaffold.Text.Basic

/-!
# Comments

A comment runs from `/*` to the next `*/` behind it. An opening without a closing is ordinary
text, and so is everything after it.
-/

namespace StyleScaffold.Css

/-- The text behind the next closing of a comment. -/
def afterComment? (s : Text) : Option Text := Text.after? ['*', '/'] s

theorem length_lt_of_after? {mark s rest : Text} (hMark : mark ≠ [])
    (h : Text.after? mark s = some rest) : rest.length < s.length := by
  induction s with
  | nil =>
    cases mark with
    | nil => exact absurd rfl hMark
    | cons m ms => simp [Text.after?, Text.strip?] at h
  | cons c cs ih =>
    unfold Text.after? at h
    split at h
    · rename_i r hr
      rw [Text.strip?_eq_some_iff] at hr
      rw [Option.some.injEq] at h
      subst h
      rw [hr]
      cases mark with
      | nil => exact absurd rfl hMark
      | cons m ms => simp only [List.cons_append, List.length_cons, List.length_append]; omega
    · have := ih h
      simp only [List.length_cons]; omega

/-- The text without its comments. -/
def withoutComments : Text → Text
  | [] => []
  | '/' :: '*' :: rest =>
    match _closed : afterComment? rest with
    | some tail => withoutComments tail
    | none => '/' :: '*' :: rest
  | c :: rest => c :: withoutComments rest
termination_by s => s.length
decreasing_by
  · have := length_lt_of_after? (by simp) _closed
    simp only [List.length_cons]; omega
  · simp

/-- Whether the text holds a complete comment. -/
def hasComment : Text → Bool
  | [] => false
  | '/' :: '*' :: rest => (afterComment? rest).isSome || hasComment ('*' :: rest)
  | _ :: rest => hasComment rest

end StyleScaffold.Css
