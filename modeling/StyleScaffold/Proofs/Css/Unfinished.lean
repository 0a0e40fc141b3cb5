import StyleScaffold.Proofs.Css.SingleBlock

/-!
# The block that a text leaves unfinished

A block ends at the end of a line, so what comes behind a text is put to the part of it behind the
last line end at which a block was complete (`unfinished`).

* `exists_blocks_unfinished`: the blocks that are complete in a text stay what they are, whatever
  comes behind it.
* `map_blocks_append_congr`: of the part that is left it only matters where it can end, and what
  is read from the block that is made of it.
-/

namespace StyleScaffold.Css

open Text

/-- At the end of this text the scan takes a block: a brace is opened and as many are closed. -/
def EndsBlock (s : Text) : Prop := ('{' : CodePoint) ∈ s ∧ braceBalance s = 0

instance (s : Text) : Decidable (EndsBlock s) := inferInstanceAs (Decidable (_ ∧ _))

/-- What a text leaves of a block that has been begun with `begun`. -/
def unfinishedFrom (begun : Text) : Text → Text
  | [] => begun
  | c :: rest =>
    if isLineBreak c ∧ EndsBlock begun then unfinishedFrom [] rest
    else unfinishedFrom (begun ++ [c]) rest

/-- The part of a text behind the last line end at which a block is complete. -/
def unfinished (s : Text) : Text := unfinishedFrom [] s

/-! ## Ends of blocks -/

theorem NoEarlierEnd.isOneBlock {s : Text} (h : NoEarlierEnd s) (hEnd : EndsBlock s) :
    IsOneBlock s := ⟨hEnd.1, hEnd.2, h⟩

theorem endsBlock_append_noBrace {w : Text} (hw : NoBrace w) (s : Text) :
    EndsBlock (s ++ w) ↔ EndsBlock s := by
  have hOpen : ('{' : CodePoint) ∉ w := hw.not_mem rfl
  unfold EndsBlock
  rw [List.mem_append, or_iff_left hOpen, braceBalance_append, braceBalance_of_noBrace hw,
    Int.add_zero]

theorem NoEarlierEnd.append_noBrace {s w : Text} (h : NoEarlierEnd s) (hEnd : ¬ EndsBlock s)
    (hw : NoBrace w) : NoEarlierEnd (s ++ w) := by
  intro a c b hEq hc hOpen hZero
  rcases append_eq_append_cons hEq with ⟨t, hs, -⟩ | ⟨t, rfl, ht⟩
  · exact h a c t hs hc hOpen hZero
  · have hFront : NoBrace t := fun d hd => hw d (by simp [ht, hd])
    exact hEnd ((endsBlock_append_noBrace hFront s).1 ⟨hOpen, hZero⟩)

theorem noBrace_of_isLineBreak {c : CodePoint} (hc : isLineBreak c = true) : NoBrace [c] := by
  apply noBrace_of_allBlank
  rw [allBlank_cons, isBlank_of_isLineBreak hc]
  rfl

theorem noEarlierEnd_nil : NoEarlierEnd [] := noEarlierEnd_of_noBrace noBrace_nil

/-- Where no block can end, there is none. -/
theorem NoEarlierEnd.blocks_eq_nil {s : Text} (h : NoEarlierEnd s) (hEnd : ¬ EndsBlock s) :
    blocks s = [] := by
  rw [blocks_eq_nil_iff]
  intro p hPrefix hne hBalanced
  by_cases hLength : p.length < (solidLines s).length
  · obtain ⟨a, c, b, hs, hc, rfl⟩ := exists_break_of_prefix hPrefix hne hLength
    obtain ⟨hOpen, hZero⟩ := balanced_solidLines_iff.1 hBalanced
    exact h a c b hs hc hOpen hZero
  · obtain rfl := hPrefix.eq_of_length_le (by omega)
    exact hEnd (balanced_solidLines_iff.1 hBalanced)

/-! ## Complete blocks -/

theorem exists_blocks_unfinishedFrom {begun : Text} (h : NoEarlierEnd begun) (s : Text) :
    NoEarlierEnd (unfinishedFrom begun s) ∧
      ∃ done, ∀ t, blocks (begun ++ (s ++ t)) = done ++ blocks (unfinishedFrom begun s ++ t) := by
  induction s generalizing begun with
  | nil => exact ⟨h, [], fun t => rfl⟩
  | cons c rest ih =>
    -- a line end that completes a block starts the next one, any other character is put to it
    unfold unfinishedFrom
    split
    · rename_i hComplete
      obtain ⟨hRest, done, hBlocks⟩ := ih noEarlierEnd_nil
      refine ⟨hRest, blockText begun :: done, ?_⟩
      intro t
      rw [List.cons_append, blocks_append_break (h.isOneBlock hComplete.2) hComplete.1,
        List.cons_append, ← hBlocks]
      rfl
    · rename_i hGoesOn
      have hMore : NoEarlierEnd (begun ++ [c]) := by
        by_cases hc : isLineBreak c = true
        · exact h.append_noBrace (fun hEnd => hGoesOn ⟨hc, hEnd⟩) (noBrace_of_isLineBreak hc)
        · exact h.append_oneLine (by simpa [OneLine] using hc)
      obtain ⟨hRest, done, hBlocks⟩ := ih hMore
      refine ⟨hRest, done, ?_⟩
      intro t
      rw [← hBlocks, List.append_assoc]
      rfl

theorem noEarlierEnd_unfinished (s : Text) : NoEarlierEnd (unfinished s) :=
  (exists_blocks_unfinishedFrom noEarlierEnd_nil s).1

theorem exists_blocks_unfinished (s : Text) :
    ∃ done, ∀ t, blocks (s ++ t) = done ++ blocks (unfinished s ++ t) :=
  (exists_blocks_unfinishedFrom noEarlierEnd_nil s).2

theorem unfinishedFrom_eq_append {begun s : Text} (h : NoEarlierEnd (begun ++ s)) :
    unfinishedFrom begun s = begun ++ s := by
  induction s generalizing begun with
  | nil => rw [unfinishedFrom, List.append_nil]
  | cons c rest ih =>
    have hGoesOn : ¬ (isLineBreak c ∧ EndsBlock begun) :=
      fun hComplete => h begun c rest rfl hComplete.1 hComplete.2.1 hComplete.2.2
    rw [List.append_cons] at h ⊢
    rw [unfinishedFrom, if_neg hGoesOn, ih h]

/-- No block is complete at a line end exactly when all of the text is left. -/
theorem noEarlierEnd_iff {s : Text} : NoEarlierEnd s ↔ unfinished s = s := by
  constructor
  · exact fun h => unfinishedFrom_eq_append h
  · intro h
    rw [← h]
    exact noEarlierEnd_unfinished s

instance (s : Text) : Decidable (NoEarlierEnd s) := decidable_of_iff _ noEarlierEnd_iff.symm

/-! ## Another beginning -/

/-- Two beginnings of a block that can end at the same places, and from which the same is read
there, are followed by the same blocks. -/
theorem map_blocks_append_congr {α : Type} {read : Text → α} {p q : Text} (hp : NoEarlierEnd p)
    (hq : NoEarlierEnd q) (hEnds : ∀ t, EndsBlock (p ++ t) ↔ EndsBlock (q ++ t))
    (hRead : ∀ t, read (blockText (p ++ t)) = read (blockText (q ++ t))) (s : Text) :
    (blocks (p ++ s)).map read = (blocks (q ++ s)).map read := by
  induction s using lineInduction generalizing p q with
  | line s hs =>
    have hpLine := hp.append_oneLine hs
    have hqLine := hq.append_oneLine hs
    by_cases hEnd : EndsBlock (p ++ s)
    · rw [blocks_of_isOneBlock (hpLine.isOneBlock hEnd),
        blocks_of_isOneBlock (hqLine.isOneBlock ((hEnds s).1 hEnd)), List.map_singleton,
        List.map_singleton, hRead]
    · rw [hpLine.blocks_eq_nil hEnd, hqLine.blocks_eq_nil fun h => hEnd ((hEnds s).2 h)]
  | lineBreak a c b ha hc ih =>
    have hpLine := hp.append_oneLine ha
    have hqLine := hq.append_oneLine ha
    rw [← List.append_assoc, ← List.append_assoc]
    by_cases hEnd : EndsBlock (p ++ a)
    · rw [blocks_append_break (hpLine.isOneBlock hEnd) hc,
        blocks_append_break (hqLine.isOneBlock ((hEnds a).1 hEnd)) hc, List.map_cons,
        List.map_cons, hRead]
    · have hBreak := noBrace_of_isLineBreak hc
      have hpMore := hpLine.append_noBrace hEnd hBreak
      have hqMore := hqLine.append_noBrace (fun h => hEnd ((hEnds a).2 h)) hBreak
      rw [List.append_cons, List.append_cons (q ++ a)]
      apply ih hpMore hqMore
      · intro t
        simpa only [List.append_assoc] using hEnds (a ++ ([c] ++ t))
      · intro t
        simpa only [List.append_assoc] using hRead (a ++ ([c] ++ t))

end StyleScaffold.Css
