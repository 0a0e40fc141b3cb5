import StyleScaffold.Number.Literal
import StyleScaffold.Proofs.Css.Rewriting
import StyleScaffold.Proofs.Text.Pieces
import StyleScaffold.Utility.Pixel

/-!
# Numerals at the start of a text

A numeral is kept as it is written (`Numeral.text_append_of_read?`), with digits and at most a point
in it. No character of a gap is among these, so a rewriting of the gaps leaves the numeral that is
read (`Numeral.read?_rewriting`) and the first length in a text (`Pixel.first?_rewriting`) alone.
-/

namespace StyleScaffold

open Text Css

variable {T : Text → Text} {s rest : Text} {n : Numeral}

namespace Numeral

/-- A numeral is a run of digits, perhaps with a point and another run behind it. -/
theorem exists_of_read? (h : read? s = some (n, rest)) :
    (∀ c ∈ n.whole, isDigit c = true) ∧
      ((n.fraction = none ∧ s = n.whole ++ rest) ∨
        ∃ part, n.fraction = some part ∧ (∀ c ∈ part, isDigit c = true) ∧
          s = n.whole ++ .char '.' :: (part ++ rest)) := by
  obtain ⟨⟨whole, back⟩, hWhole, h⟩ := Option.map_eq_some_iff.1 h
  have hDigits := forall_of_run? hWhole
  rw [append_of_run? hWhole]
  dsimp only at h
  split at h
  · split at h
    · rename_i part more hPart
      cases h
      exact ⟨hDigits, Or.inr ⟨part, rfl, forall_of_run? hPart, by rw [append_of_run? hPart]⟩⟩
    · cases h
      exact ⟨hDigits, Or.inl ⟨rfl, rfl⟩⟩
  · cases h
    exact ⟨hDigits, Or.inl ⟨rfl, rfl⟩⟩

theorem text_append_of_read? (h : read? s = some (n, rest)) : s = n.text ++ rest := by
  obtain ⟨-, ⟨hNone, hText⟩ | ⟨part, hSome, -, hText⟩⟩ := exists_of_read? h
  · rw [text, hNone, hText]
  · rw [text, hSome, hText]
    simp [ofString]

theorem isDigit_of_mem_text (h : read? s = some (n, rest)) :
    ∀ c ∈ n.text, isDigit c = true ∨ c = '.' := by
  intro c hc
  obtain ⟨hWhole, ⟨hNone, -⟩ | ⟨part, hSome, hPart, -⟩⟩ := exists_of_read? h
  · rw [text, hNone] at hc
    exact Or.inl (hWhole c hc)
  · rw [text, hSome] at hc
    simp only [List.mem_append] at hc
    rcases hc with (hc | hc) | hc
    · exact Or.inl (hWhole c hc)
    · exact Or.inr (List.mem_singleton.1 hc)
    · exact Or.inl (hPart c hc)

theorem read?_rewriting (hT : IsRewriting T) (s : Text) :
    read? (T s) = (read? s).map (Prod.map id T) := by
  have hDigit : ∀ c, isDigit c = true → isCore c = true := fun _ => isCore_of_isDigit
  have hPoint : ∀ c ∈ [CodePoint.char '.'], isCore c = true := by decide
  unfold read?
  rw [hT.run?_rewriting hDigit]
  cases run? isDigit s with
  | none => rfl
  | some found =>
    obtain ⟨whole, back⟩ := found
    simp only [Option.map_some, Prod.map_apply, id_eq]
    refine congrArg some ?_
    by_cases hBack : ∃ tail, back = .char '.' :: tail
    · obtain ⟨tail, rfl⟩ := hBack
      have hKeep := hT.keep_core (hPoint _ List.mem_cons_self) tail
      simp only [hKeep, hT.run?_rewriting hDigit]
      cases run? isDigit tail with
      | none => exact congrArg (Prod.mk _) hKeep.symm
      | some part => rfl
    · split
      · rename_i tail hEq
        obtain ⟨more, hMore, -⟩ := (hT.eq_append_iff hPoint).1 hEq
        exact absurd ⟨more, hMore⟩ hBack
      · split
        · exact absurd ⟨_, rfl⟩ hBack
        · rfl

theorem read?_cons_of_gap {c : CodePoint} (hc : isGapChar c = true) (s : Text) :
    read? (c :: s) = none := by
  have hNone : isDigit c = false := by
    rw [Bool.eq_false_iff]
    intro hDigit
    rw [(isCore_iff.1 (isCore_of_isDigit hDigit)).1] at hc
    contradiction
  rw [read?, run?_eq, List.head?_cons, Option.any_some, hNone]
  rfl

end Numeral

namespace Pixel

theorem read?_rewriting (hT : IsRewriting T) (s : Text) : read? (T s) = read? s := by
  have hUnit : ∀ t, startsWith "px" (T t) = startsWith "px" t := by
    intro t
    rw [startsWith, hT.strip?_rewriting (by decide), Option.isSome_map, startsWith]
  unfold read?
  rw [Numeral.read?_rewriting hT]
  cases Numeral.read? s with
  | none => rfl
  | some found =>
    show (if startsWith "px" (T found.2) = true then some found.1 else none) =
      if startsWith "px" found.2 = true then some found.1 else none
    rw [hUnit]

theorem first?_rewriting (hT : IsRewriting T) (s : Text) : first? (T s) = first? s := by
  have hGap : ∀ {u : Text}, (∀ d ∈ u, isGapChar d = true) → ∀ t, first? (u ++ t) = first? t := by
    intro u hu t
    induction u with
    | nil => rfl
    | cons d u ih =>
      rw [List.forall_mem_cons] at hu
      have hNone : read? (d :: (u ++ t)) = none := by
        rw [read?, Numeral.read?_cons_of_gap hu.1]
        rfl
      rw [List.cons_append, first?, firstMatch, hNone]
      exact ih hu.2
  induction s using hT.induction with
  | nil => rw [hT.nil]
  | keep c s hKeep ih =>
    have hHere := read?_rewriting hT (c :: s)
    rw [hKeep] at hHere ⊢
    rw [first?, first?, firstMatch, firstMatch, hHere]
    split
    · rfl
    · exact ih
  | gap c skipped rest filler hc hEq hAll ih =>
    rw [List.forall_mem_append] at hAll
    rw [hEq, hGap hAll.2, ih, ← List.cons_append, hGap (List.forall_mem_cons.2 ⟨hc, hAll.1⟩)]

end Pixel

end StyleScaffold
