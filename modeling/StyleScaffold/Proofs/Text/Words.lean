import StyleScaffold.Proofs.Text.Collapse
import StyleScaffold.Proofs.Text.Pieces

/-!
# The words of a text

Words with a space between neighbours are the words of the text that they make (`words_join`), and
no word holds a character that is not in its text (`mem_of_mem_words`).
-/

namespace StyleScaffold.Text

/-- A word is not empty, and no character in it is blank. -/
def IsSolidWord (w : Text) : Prop := w ≠ [] ∧ Solid w

@[simp] theorem words_nil : words [] = [] := by rw [words]

theorem words_cons_of_blank {c : CodePoint} (hc : isBlank c = true) (s : Text) :
    words (c :: s) = words s := by
  rw [words, if_pos hc]

/-- A word ends at a blank or with the text. -/
theorem words_append {w s : Text} (hw : IsSolidWord w) (hs : ∀ c ∈ s.head?, isBlank c = true) :
    words (w ++ s) = w :: words s := by
  obtain ⟨hne, hSolid⟩ := hw
  obtain ⟨c, w, rfl⟩ := List.exists_cons_of_ne_nil hne
  rw [solid_cons] at hSolid
  have hWord : ∀ d ∈ w, (! isBlank d) = true := fun d hd => by rw [hSolid.2 d hd, Bool.not_false]
  have hSplit : s.takeWhile (! isBlank ·) = [] ∧ s.dropWhile (! isBlank ·) = s := by
    cases s with
    | nil => exact ⟨rfl, rfl⟩
    | cons d s =>
      have hd : isBlank d = true := hs d rfl
      simp [hd]
  rw [List.cons_append, words, hSolid.1, if_neg Bool.false_ne_true,
    List.takeWhile_append_of_pos hWord, List.dropWhile_append_of_pos hWord, hSplit.1, hSplit.2,
    List.append_nil]

theorem words_join {ws : List Text} (h : ∀ w ∈ ws, IsSolidWord w) :
    words (join [.char ' '] ws) = ws := by
  induction ws with
  | nil => exact words_nil
  | cons w rest ih =>
    rw [List.forall_mem_cons] at h
    by_cases hRest : rest = []
    · have hLast := words_append h.1 (s := []) (by simp)
      rw [List.append_nil, words_nil] at hLast
      rw [hRest, join_singleton, hLast]
    · have hSpace : isBlank (.char ' ') = true := by decide
      rw [join_cons hRest, List.append_assoc, List.singleton_append,
        words_append h.1 (by simpa using hSpace), words_cons_of_blank hSpace, ih h.2]

theorem mem_of_mem_words {s w : Text} {c : CodePoint} (hw : w ∈ words s) (hc : c ∈ w) : c ∈ s := by
  fun_induction words s with
  | case1 => cases hw
  | case2 d s hd ih => exact List.mem_cons_of_mem d (ih hw)
  | case3 d s hd ih =>
    rcases List.mem_cons.1 hw with rfl | hw
    · exact ((List.takeWhile_sublist _).cons_cons d).subset hc
    · exact List.mem_cons_of_mem d ((List.dropWhile_sublist _).subset (ih hw))

end StyleScaffold.Text
