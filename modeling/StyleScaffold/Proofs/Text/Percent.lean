import StyleScaffold.Proofs.Text.Hex
import StyleScaffold.Proofs.Text.Utf8
import StyleScaffold.Text.Percent

/-!
# Percent-encoded texts

A text may be percent-encoded in many ways: every character but the percent sign may stand for
itself, and every character may be written by the escapes of its bytes, with digits of either
case. `PercentWritten` is the relation between a text and what it is written as.

Main results:

* decoding reads every written form of a text (`percentDecode_of_written`), the one that
  `percentEncode` chooses among them (`percentWritten_percentEncode`);
* a character that is neither a percent sign nor a hexadecimal digit ends every escape and every
  character in front of it, complete or not (`percentDecode_append_cons`), so that a text of such
  characters stays as it is behind any text (`percentDecode_append`).
-/

namespace StyleScaffold.Text

/-! ## The bytes of a run -/

theorem unescapedBytes_cons {c : CodePoint} (h : c ≠ '%') (s : Text) :
    unescapedBytes (c :: s) = UInt8.ofNat c.toNat :: unescapedBytes s := by
  rw [unescapedBytes]
  intro a b rest hc
  exact absurd hc h

theorem unescapedBytes_escape {a b : CodePoint} {high low : Nat} (hHigh : hexValue? a = some high)
    (hLow : hexValue? b = some low) (s : Text) :
    unescapedBytes ('%' :: a :: b :: s) = UInt8.ofNat (16 * high + low) :: unescapedBytes s := by
  rw [unescapedBytes]
  simp only [hHigh, hLow]

/-- Two hexadecimal digits at the start of a text, as behind the percent sign of an escape. -/
def StartsWithDigits (s : Text) : Prop :=
  ∃ a b rest, s = a :: b :: rest ∧ hexValue? a ≠ none ∧ hexValue? b ≠ none

/-- A percent sign without two digits behind it stands for itself. -/
theorem unescapedBytes_percent {s : Text} (h : ¬ StartsWithDigits s) :
    unescapedBytes ('%' :: s) = 0x25 :: unescapedBytes s := by
  match s, h with
  | [], _ => rfl
  | [_], _ => rfl
  | a :: b :: rest, h =>
    rw [unescapedBytes]
    split
    · rename_i hHigh hLow
      exact absurd ⟨a, b, rest, rfl, by simp [hHigh], by simp [hLow]⟩ h
    · rfl

theorem StartsWithDigits.of_append_cons {s t : Text} {c : CodePoint} (hHex : hexValue? c = none)
    (h : StartsWithDigits (s ++ c :: t)) : StartsWithDigits s := by
  obtain ⟨a, b, rest, hText, ha, hb⟩ := h
  match s, hText with
  | [], hText =>
    cases hText
    exact absurd hHex ha
  | [_], hText =>
    cases hText
    exact absurd hHex hb
  | _ :: _ :: s, hText =>
    cases hText
    exact ⟨a, b, s, rfl, ha, hb⟩

theorem unescapedBytes_append_cons {c : CodePoint} (hPercent : c ≠ '%') (hHex : hexValue? c = none)
    (s t : Text) :
    unescapedBytes (s ++ c :: t) =
      unescapedBytes s ++ UInt8.ofNat c.toNat :: unescapedBytes t := by
  fun_induction unescapedBytes s with
  | case1 => exact unescapedBytes_cons hPercent t
  | case2 a b rest high low hLow hHigh ih =>
    rw [List.cons_append, List.cons_append, List.cons_append, unescapedBytes_escape hHigh hLow, ih,
      List.cons_append]
  | case3 a b rest hNone ih =>
    have hPlain : ¬ StartsWithDigits (a :: b :: rest) := by
      rintro ⟨_, _, _, ⟨⟩, ha, hb⟩
      obtain ⟨high, hHigh⟩ := Option.ne_none_iff_exists'.1 ha
      obtain ⟨low, hLow⟩ := Option.ne_none_iff_exists'.1 hb
      exact hNone high low hHigh hLow
    rw [List.cons_append, unescapedBytes_percent fun h => hPlain (h.of_append_cons hHex), ih,
      List.cons_append]
  | case4 d rest hShort ih =>
    by_cases hd : d = '%'
    · have hPlain : ¬ StartsWithDigits rest := by
        rintro ⟨a, b, more, hRest, -⟩
        exact hShort a b more hd hRest
      rw [hd, List.cons_append, unescapedBytes_percent fun h => hPlain (h.of_append_cons hHex), ih]
      rfl
    · rw [List.cons_append, unescapedBytes_cons hd, ih, List.cons_append]

/-! ## Runs of ASCII -/

theorem percentDecode_eq (s : Text) :
    percentDecode s = decodeLenient (unescapedBytes (s.takeWhile isAscii)) ++
      percentDecode (s.dropWhile isAscii) := by
  cases s with
  | nil => simp [percentDecode, unescapedBytes, decodeLenient, units]
  | cons c s =>
    by_cases hc : isAscii c
    · rw [percentDecode, if_pos hc, List.takeWhile_cons_of_pos hc, List.dropWhile_cons_of_pos hc]
    · rw [List.takeWhile_cons_of_neg hc, List.dropWhile_cons_of_neg hc]
      simp [unescapedBytes, decodeLenient, units]

theorem percentDecode_append_ascii {a : Text} (h : ∀ c ∈ a, isAscii c = true) (s : Text) :
    percentDecode (a ++ s) =
      decodeLenient (unescapedBytes (a ++ s.takeWhile isAscii)) ++
        percentDecode (s.dropWhile isAscii) := by
  rw [percentDecode_eq, List.takeWhile_append_of_pos h, List.dropWhile_append_of_pos h]

theorem decodeLenient_ascii {c : CodePoint} (h : isAscii c = true) (bytes : List UInt8) :
    decodeLenient (UInt8.ofNat c.toNat :: bytes) = c :: decodeLenient bytes := by
  rw [isAscii, decide_eq_true_eq] at h
  rw [decodeLenient, units_one h, CodePoint.ofNat_toNat]
  rfl

theorem percentDecode_cons {c : CodePoint} (h : c ≠ '%') (s : Text) :
    percentDecode (c :: s) = c :: percentDecode s := by
  by_cases hc : isAscii c
  · rw [percentDecode, if_pos hc, unescapedBytes_cons h, decodeLenient_ascii hc, List.cons_append,
      ← percentDecode_eq]
  · rw [percentDecode, if_neg hc]

/-! ## Boundaries -/

theorem decodeLenient_append_ascii {b : UInt8} (hb : b.toNat < 0x80) (bytes more : List UInt8) :
    decodeLenient (bytes ++ b :: more) = decodeLenient bytes ++ decodeLenient (b :: more) := by
  rw [decodeLenient, units_append_ascii hb, List.map_append]
  rfl

theorem percentDecode_ascii_append_cons {a : Text} (h : ∀ d ∈ a, isAscii d = true) {c : CodePoint}
    (hPercent : c ≠ '%') (hHex : hexValue? c = none) (t : Text) :
    percentDecode (a ++ c :: t) = decodeLenient (unescapedBytes a) ++ c :: percentDecode t := by
  by_cases hc : isAscii c
  · have hByte : (UInt8.ofNat c.toNat).toNat < 0x80 := by
      rw [isAscii, decide_eq_true_eq] at hc
      rwa [toNat_ofNat_byte (by omega)]
    rw [percentDecode_append_ascii h, List.takeWhile_cons_of_pos hc, List.dropWhile_cons_of_pos hc,
      unescapedBytes_append_cons hPercent hHex, decodeLenient_append_ascii hByte,
      decodeLenient_ascii hc, List.append_assoc, List.cons_append, ← percentDecode_eq]
  · rw [percentDecode_append_ascii h, List.takeWhile_cons_of_neg hc, List.dropWhile_cons_of_neg hc,
      List.append_nil, percentDecode_cons hPercent]

theorem percentDecode_append_cons {c : CodePoint} (hPercent : c ≠ '%') (hHex : hexValue? c = none)
    (s t : Text) :
    percentDecode (s ++ c :: t) = percentDecode s ++ c :: percentDecode t := by
  fun_induction percentDecode s with
  | case1 => exact percentDecode_cons hPercent t
  | case2 d s hd ih =>
    have hRun : ∀ e ∈ d :: s.takeWhile isAscii, isAscii e = true := by
      rintro e (_ | ⟨_, he⟩)
      · exact hd
      · exact List.all_eq_true.1 List.all_takeWhile e he
    have hSplit : d :: s ++ c :: t =
        (d :: s.takeWhile isAscii) ++ (s.dropWhile isAscii ++ c :: t) := by
      rw [List.cons_append, List.cons_append, ← List.append_assoc, List.takeWhile_append_dropWhile]
    rw [hSplit]
    cases hRest : s.dropWhile isAscii with
    | nil =>
      rw [List.nil_append, percentDecode_ascii_append_cons hRun hPercent hHex, percentDecode,
        List.append_nil]
    | cons e rest =>
      have he : ¬ isAscii e := by
        have hHead := List.head?_dropWhile_not isAscii s
        rw [hRest] at hHead
        simpa using hHead
      have hTake : (e :: rest ++ c :: t).takeWhile isAscii = [] := List.takeWhile_cons_of_neg he
      have hDrop : (e :: rest ++ c :: t).dropWhile isAscii = e :: rest ++ c :: t :=
        List.dropWhile_cons_of_neg he
      rw [percentDecode_append_ascii hRun, hTake, hDrop, List.append_nil, ← hRest, ih,
        List.append_assoc]
  | case3 d s hd ih => rw [List.cons_append, percentDecode, if_neg hd, ih, List.cons_append]

/-- A text of boundaries stays as it is behind any text. -/
theorem percentDecode_append {w : Text} (h : ∀ c ∈ w, c ≠ '%' ∧ hexValue? c = none) (s : Text) :
    percentDecode (s ++ w) = percentDecode s ++ w := by
  induction w generalizing s with
  | nil => rw [List.append_nil, List.append_nil]
  | cons c w ih =>
    obtain ⟨⟨hPercent, hHex⟩, hRest⟩ := List.forall_mem_cons.1 h
    have hSelf := ih hRest []
    rw [List.nil_append, percentDecode, List.nil_append] at hSelf
    rw [percentDecode_append_cons hPercent hHex, hSelf]

/-! ## Written forms -/

/-- Bytes as escapes. -/
inductive EscapedBytes : List UInt8 → Text → Prop
  | nil : EscapedBytes [] []
  | cons {a b : CodePoint} {high low : Nat} {bytes : List UInt8} {written : Text} :
    hexValue? a = some high → hexValue? b = some low → EscapedBytes bytes written →
      EscapedBytes (UInt8.ofNat (16 * high + low) :: bytes) ('%' :: a :: b :: written)

/-- A text and one of the ways to write it: every character as it is or by the escapes of its
bytes, a percent sign by its escape only. -/
inductive PercentWritten : Text → Text → Prop
  | nil : PercentWritten [] []
  | plain {c : CodePoint} {s written : Text} :
    c ≠ '%' → PercentWritten s written → PercentWritten (c :: s) (c :: written)
  | escaped {c : Char} {s escapes written : Text} :
    EscapedBytes (pointBytes (.char c)) escapes → PercentWritten s written →
      PercentWritten (.char c :: s) (escapes ++ written)

theorem EscapedBytes.isAscii {bytes : List UInt8} {escapes : Text}
    (h : EscapedBytes bytes escapes) : ∀ c ∈ escapes, isAscii c = true := by
  induction h with
  | nil => exact fun _ h => nomatch h
  | cons hHigh hLow _ ih =>
    simp only [List.forall_mem_cons]
    exact ⟨rfl, isAscii_of_hexValue? hHigh, isAscii_of_hexValue? hLow, ih⟩

theorem EscapedBytes.unescapedBytes_append {bytes : List UInt8} {escapes : Text}
    (h : EscapedBytes bytes escapes) (s : Text) :
    unescapedBytes (escapes ++ s) = bytes ++ unescapedBytes s := by
  induction h with
  | nil => rfl
  | cons hHigh hLow _ ih =>
    rw [List.cons_append, List.cons_append, List.cons_append, unescapedBytes_escape hHigh hLow, ih,
      List.cons_append]

theorem EscapedBytes.percentDecode_append {c : Char} {escapes : Text}
    (h : EscapedBytes (pointBytes (.char c)) escapes) (s : Text) :
    percentDecode (escapes ++ s) = .char c :: percentDecode s := by
  rw [percentDecode_append_ascii h.isAscii, h.unescapedBytes_append, decodeLenient_character,
    List.cons_append, ← percentDecode_eq]

theorem percentDecode_of_written {s written : Text} (h : PercentWritten s written) :
    percentDecode written = s := by
  induction h with
  | nil => rw [percentDecode]
  | plain hc _ ih => rw [percentDecode_cons hc, ih]
  | escaped hEscapes _ ih => rw [hEscapes.percentDecode_append, ih]

/-! ## The chosen form -/

theorem percentByte_eq (b : UInt8) :
    ∃ (high low : Nat) (a d : CodePoint), percentByte b = .char '%' :: [a, d] ∧
      hexValue? a = some high ∧ hexValue? d = some low ∧ UInt8.ofNat (16 * high + low) = b := by
  have hByte : b.toNat < 16 ^ 2 := UInt8.toNat_lt_size b
  have hLength := length_hex (by decide) hByte
  have hNumber := hexNumber?_hex 2 b.toNat
  match hDigits : hex 2 b.toNat, hLength with
  | [a, d], _ =>
    rw [hDigits] at hNumber
    obtain ⟨high, low, hHigh, hLow, hSum⟩ := hexNumber?_pair hNumber
    refine ⟨high, low, asciiUpper a, asciiUpper d, ?_, hexValue?_asciiUpper hHigh,
      hexValue?_asciiUpper hLow, ?_⟩
    · rw [percentByte, hDigits]
      rfl
    · rw [hSum, UInt8.ofNat_toNat]

theorem escapedBytes_percentByte (bytes : List UInt8) :
    EscapedBytes bytes (bytes.flatMap percentByte) := by
  induction bytes with
  | nil => exact .nil
  | cons b bytes ih =>
    obtain ⟨high, low, a, d, hByte, hHigh, hLow, hb⟩ := percentByte_eq b
    rw [List.flatMap_cons, hByte, ← hb]
    exact .cons hHigh hLow ih

/-- What is written by `percentEncode` is one of the forms, if the percent sign is not plain. -/
theorem percentWritten_percentEncode {isPlain : CodePoint → Bool} (hPlain : isPlain '%' = false)
    {s : Text} (h : isWellFormed s = true) : PercentWritten s (percentEncode isPlain s) := by
  induction s with
  | nil => exact .nil
  | cons c s ih =>
    rw [isWellFormed, List.all_cons, Bool.and_eq_true] at h
    have hRest := ih h.2
    rw [percentEncode] at hRest
    rw [percentEncode, List.flatMap_cons]
    split
    · rename_i hc
      refine .plain ?_ hRest
      rintro rfl
      rw [hPlain] at hc
      cases hc
    · match c, h.1 with
      | .char c, _ => exact .escaped (escapedBytes_percentByte _) hRest

end StyleScaffold.Text
