import StyleScaffold.Json.Parser
import StyleScaffold.Json.Printer
import StyleScaffold.Proofs.Text.Hex
import StyleScaffold.Proofs.Text.SurrogatePair

/-!
# Texts in JSON

A text is written with escapes for quotes, backslashes, control characters and everything beyond
ASCII, a character beyond the first plane as the two halves of its surrogate pair. What is read back
is the text with its surrogate pairs joined (`stringBody_written`): two halves that stand one behind
the other in a text are written like the character of the pair.
-/

namespace StyleScaffold.Json

open Text

/-! ## Spellings -/

/-- A text and the pieces that it is written in. -/
inductive Spelling : Text → List Piece → Prop
  | nil : Spelling [] []
  | plain {c : CodePoint} {s : Text} {ps : List Piece} :
    c.isHighHalf = false → c.isLowHalf = false → Spelling s ps → Spelling (c :: s) (.plain c :: ps)
  | numbered (c : CodePoint) {s : Text} {ps : List Piece} :
    Spelling s ps → Spelling (c :: s) (.numbered c :: ps)
  | pair {high low : CodePoint} {s : Text} {ps : List Piece} :
    high.isHighHalf = true → low.isLowHalf = true → Spelling s ps →
      Spelling (.ofHalves high low :: s) (.numbered high :: .numbered low :: ps)

/-- Whether a second half of a surrogate pair is written first. -/
def startsLow : List Piece → Bool
  | .numbered low :: _ => low.isLowHalf
  | _ => false

theorem joinPieces_plain (c : CodePoint) (ps : List Piece) :
    joinPieces (.plain c :: ps) = c :: joinPieces ps := by
  rw [joinPieces]

theorem joinPieces_numbered {c : CodePoint} {ps : List Piece}
    (h : (c.isHighHalf && startsLow ps) = false) :
    joinPieces (.numbered c :: ps) = c :: joinPieces ps := by
  match ps with
  | [] => rfl
  | .plain d :: ps => rfl
  | .numbered d :: ps =>
    rw [startsLow] at h
    rw [joinPieces, h]
    rfl

theorem joinPieces_pair {high low : CodePoint} (hHigh : high.isHighHalf = true)
    (hLow : low.isLowHalf = true) (ps : List Piece) :
    joinPieces (.numbered high :: .numbered low :: ps) = .ofHalves high low :: joinPieces ps := by
  rw [joinPieces, hHigh, hLow]
  rfl

theorem Spelling.startsLow_eq {s : Text} {ps : List Piece} (h : Spelling s ps) :
    startsLow ps = s.head?.any CodePoint.isLowHalf := by
  cases h with
  | nil => rfl
  | plain hHigh hLow _ => exact hLow.symm
  | numbered c _ => rfl
  | pair hHigh hLow _ =>
    rw [startsLow, CodePoint.isLowHalf_of_isHighHalf hHigh, List.head?_cons, Option.any_some,
      (CodePoint.isHalf_ofHalves hHigh hLow).2]

/-- The pieces of a text write it with its pairs joined. -/
theorem Spelling.joinPieces_eq {s : Text} {ps : List Piece} (h : Spelling s ps) :
    joinPieces ps = joinHalves s := by
  induction h with
  | nil => rfl
  | plain hHigh _ _ ih => rw [joinPieces_plain, ih, joinHalves_cons (by rw [hHigh]; rfl)]
  | pair hHigh hLow _ ih =>
    rw [joinPieces_pair hHigh hLow, ih, joinHalves_cons]
    rw [(CodePoint.isHalf_ofHalves hHigh hLow).1]
    rfl
  | @numbered c s ps hRest ih =>
    cases hPair : c.isHighHalf && startsLow ps with
    | false =>
      rw [joinPieces_numbered hPair, ih, joinHalves_cons (hRest.startsLow_eq ▸ hPair)]
    | true =>
      rw [Bool.and_eq_true] at hPair
      obtain ⟨hHigh, hStart⟩ := hPair
      cases hRest with
      | nil => cases hStart
      | plain => cases hStart
      | pair hOther _ _ =>
        rw [startsLow, CodePoint.isLowHalf_of_isHighHalf hOther] at hStart
        cases hStart
      | @numbered low s ps _ =>
        -- the rest was joined behind the second half, which is a part of this pair now
        have hLow : low.isHighHalf = false := CodePoint.isHighHalf_of_isLowHalf hStart
        rw [joinPieces_numbered (by rw [hLow]; rfl), joinHalves_cons (by rw [hLow]; rfl)] at ih
        rw [joinPieces_pair hHigh hStart, joinHalves_pair hHigh hStart, (List.cons.inj ih).2]

/-! ## Written code points -/

/-- A text is read as pieces that spell the code point, whatever stands around them. -/
def Writes (written : Text) (c : CodePoint) : Prop :=
  ∃ ps : List Piece, (∀ s rest, Spelling s rest → Spelling (c :: s) (ps ++ rest)) ∧
    ∀ t, pieces (written ++ t) = (pieces t).map (Prod.map (ps ++ ·) id)

theorem spelling_plain {c : CodePoint} (hc : c.toNat < 0x80) {s : Text} {ps : List Piece}
    (h : Spelling s ps) : Spelling (c :: s) ([.plain c] ++ ps) := by
  refine .plain ?_ ?_ h
  · rw [Bool.eq_false_iff, Ne, CodePoint.isHighHalf_iff]
    omega
  · rw [Bool.eq_false_iff, Ne, CodePoint.isLowHalf_iff]
    omega

theorem writes_escape {letter c : CodePoint} (hLetter : letter ≠ 'u')
    (h : escaped? letter = some c) (hc : c.toNat < 0x80) : Writes [.char '\\', letter] c := by
  refine ⟨[.plain c], fun s rest => spelling_plain hc, fun t => ?_⟩
  rw [List.cons_append, List.singleton_append, pieces]
  · rw [h]
    cases pieces t <;> rfl
  · intro _ _ _ _ _ hu
    exact absurd hu hLetter

theorem writes_self {c : CodePoint} (hQuote : c ≠ '"') (hBackslash : c ≠ '\\')
    (hLow : 0x20 ≤ c.toNat) (hHigh : c.toNat < 0x80) : Writes [c] c := by
  refine ⟨[.plain c], fun s rest => spelling_plain hHigh, fun t => ?_⟩
  have hPlain : ¬ (decide (c.toNat < 0x20) || decide (c = '\\')) = true := by
    simp only [Bool.or_eq_true, decide_eq_true_eq]
    exact not_or.2 ⟨Nat.not_lt_of_le hLow, hBackslash⟩
  rw [List.singleton_append, pieces]
  · rw [if_neg hPlain]
    rfl
  · exact hQuote
  · exact fun _ _ _ _ _ h _ => hBackslash h
  · exact fun _ _ h _ => hBackslash h

theorem pieces_unitEscape {n : Nat} (h : n < 0x10000) (t : Text) :
    pieces (unitEscape n ++ t) = (pieces t).map (Prod.map (.numbered (.ofNat n) :: ·) id) := by
  have hNumber := hexNumber?_hex 4 n
  have hLength : (hex 4 n).length = 4 := length_hex (by decide) h
  match hDigits : hex 4 n, hLength with
  | [a, b, c, d], _ =>
    rw [hDigits] at hNumber
    have hText : unitEscape n ++ t = .char '\\' :: .char 'u' :: a :: b :: c :: d :: t := by
      rw [unitEscape, hDigits]
      rfl
    rw [hText, pieces, hNumber]
    cases pieces t <;> rfl

theorem writes_unit {c : CodePoint} (h : c.toNat < 0x10000) : Writes (unitEscape c.toNat) c := by
  refine ⟨[.numbered c], fun s rest => .numbered c, fun t => ?_⟩
  rw [pieces_unitEscape h, CodePoint.ofNat_toNat]
  rfl

/-- A code point beyond the first plane is written by the halves of its surrogate pair. -/
theorem writes_halves {c : CodePoint} (h : 0x10000 ≤ c.toNat) :
    Writes (unitEscape (0xD800 + (c.toNat - 0x10000) / 0x400) ++
      unitEscape (0xDC00 + (c.toNat - 0x10000) % 0x400)) c := by
  have hBound : c.toNat < 0x110000 := CodePoint.toNat_lt c
  generalize hUpper : 0xD800 + (c.toNat - 0x10000) / 0x400 = upper
  generalize hLower : 0xDC00 + (c.toNat - 0x10000) % 0x400 = lower
  have hHigh : (CodePoint.ofNat upper).isHighHalf = true := by
    rw [CodePoint.isHighHalf_iff, CodePoint.toNat_ofNat (by omega)]
    omega
  have hLow : (CodePoint.ofNat lower).isLowHalf = true := by
    rw [CodePoint.isLowHalf_iff, CodePoint.toNat_ofNat (by omega)]
    omega
  have hPair : CodePoint.ofHalves (.ofNat upper) (.ofNat lower) = c := by
    apply CodePoint.eq_of_toNat_eq
    rw [CodePoint.toNat_ofHalves hHigh hLow, CodePoint.toNat_ofNat (by omega),
      CodePoint.toNat_ofNat (by omega)]
    omega
  refine ⟨[.numbered (.ofNat upper), .numbered (.ofNat lower)],
    fun s rest h => hPair ▸ .pair hHigh hLow h, fun t => ?_⟩
  rw [List.append_assoc, pieces_unitEscape (by omega), pieces_unitEscape (by omega),
    Option.map_map]
  rfl

theorem writes_charText (c : CodePoint) : Writes (charText c) c := by
  simp only [charText]
  -- the seven characters with an escape of their own
  iterate 7
    split
    · rename_i h
      rw [h]
      exact writes_escape (by decide) rfl (by decide)
  split
  · rename_i hQuote hBackslash _ _ _ _ _ h
    exact writes_self hQuote hBackslash h.1 (Nat.lt_succ_of_lt h.2)
  split
  · rename_i h
    exact writes_unit h
  · rename_i h
    exact writes_halves (Nat.le_of_not_lt h)

/-! ## Written texts -/

theorem exists_pieces_flatMap (s rest : Text) :
    ∃ ps, Spelling s ps ∧ pieces (s.flatMap charText ++ .char '"' :: rest) = some (ps, rest) := by
  induction s with
  | nil => exact ⟨[], .nil, rfl⟩
  | cons c s ih =>
    obtain ⟨ps, hSpelling, hPieces⟩ := ih
    obtain ⟨own, hOwn, hText⟩ := writes_charText c
    refine ⟨own ++ ps, hOwn s ps hSpelling, ?_⟩
    rw [List.flatMap_cons, List.append_assoc, hText, hPieces]
    rfl

/-- **A written text is read back** with its surrogate pairs joined. -/
theorem stringBody_written (s rest : Text) :
    stringBody (s.flatMap charText ++ .char '"' :: rest) = some (joinHalves s, rest) := by
  obtain ⟨ps, hSpelling, hPieces⟩ := exists_pieces_flatMap s rest
  rw [stringBody, hPieces, Option.map_some]
  exact congrArg (fun text => some (text, rest)) hSpelling.joinPieces_eq

end StyleScaffold.Json
