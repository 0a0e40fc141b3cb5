import StyleScaffold.Text.Utf8

/-!
# Bytes of characters

The bytes of a character are one unit of the input, whatever comes behind them (`units_character`),
and a byte of ASCII ends the unit in front of it, complete or not (`units_append_ascii`).
-/

namespace StyleScaffold.Text

/-! ## Lead bytes -/

theorem announced_one {lead : Nat} (h : lead < 0x80) : announced false lead = some (lead, []) :=
  if_pos h

theorem announced_two {lead : Nat} (hLow : 0xC2 ≤ lead) (hHigh : lead < 0xE0) :
    announced false lead = some (lead - 0xC0, [(0x80, 0xBF)]) := by
  rw [announced, if_neg (by omega), if_neg (by omega), if_pos hHigh]

/-- The second of three bytes is bounded below the surrogates and above what two bytes write. -/
theorem announced_three {lead : Nat} (hLow : 0xE0 ≤ lead) (hHigh : lead < 0xF0) :
    announced false lead = some (lead - 0xE0,
      [(if lead = 0xE0 then 0xA0 else 0x80, if lead = 0xED then 0x9F else 0xBF),
        (0x80, 0xBF)]) := by
  rw [announced, if_neg (by omega), if_neg (by omega), if_neg (by omega)]
  by_cases hFirst : lead = 0xE0
  · subst hFirst
    rfl
  · by_cases hSurrogate : lead = 0xED
    · subst hSurrogate
      rfl
    · simp [hFirst, hSurrogate, hHigh]

/-- The second of four bytes is bounded by what three bytes write and by the last code point. -/
theorem announced_four {lead : Nat} (hLow : 0xF0 ≤ lead) (hHigh : lead ≤ 0xF4) :
    announced false lead = some (lead - 0xF0,
      [(if lead = 0xF0 then 0x90 else 0x80, if lead = 0xF4 then 0x8F else 0xBF), (0x80, 0xBF),
        (0x80, 0xBF)]) := by
  obtain rfl | rfl | rfl | rfl | rfl :
      lead = 0xF0 ∨ lead = 0xF1 ∨ lead = 0xF2 ∨ lead = 0xF3 ∨ lead = 0xF4 := by omega
  all_goals rfl

/-! ## One character -/

theorem toNat_ofNat_byte {n : Nat} (h : n < 256) : (UInt8.ofNat n).toNat = n := by
  rw [UInt8.toNat_ofNat']
  omega

theorem units_cons {n payload point : Nat} {ranges : List (Nat × Nat)} {bytes rest : List UInt8}
    {surrogates : Bool} (hn : n < 256) (hLead : announced surrogates n = some (payload, ranges))
    (hFollow : follow payload ranges bytes = (some point, rest)) :
    units surrogates (UInt8.ofNat n :: bytes) = .ok (.ofNat point) :: units surrogates rest := by
  rw [units]
  simp only [toNat_ofNat_byte hn, hLead, hFollow]

theorem follow_cons {n low high point : Nat} {ranges : List (Nat × Nat)} {bytes : List UInt8}
    (hn : n < 256) (hLow : low ≤ n) (hHigh : n ≤ high) :
    follow point ((low, high) :: ranges) (UInt8.ofNat n :: bytes) =
      follow (64 * point + (n - 0x80)) ranges bytes := by
  rw [follow, toNat_ofNat_byte hn, if_pos ⟨hLow, hHigh⟩]

theorem units_one {n : Nat} (h : n < 0x80) (bytes : List UInt8) :
    units false (UInt8.ofNat n :: bytes) = .ok (.ofNat n) :: units false bytes :=
  units_cons (by omega) (announced_one h) rfl

theorem units_two {n : Nat} (hLow : 0x80 ≤ n) (hHigh : n < 0x800) (bytes : List UInt8) :
    units false (UInt8.ofNat (n / 64 % 32 + 0xC0) :: UInt8.ofNat (n % 64 + 0x80) :: bytes) =
      .ok (.ofNat n) :: units false bytes := by
  have hPoint : 64 * (n / 64 % 32 + 0xC0 - 0xC0) + (n % 64 + 0x80 - 0x80) = n := by omega
  refine units_cons (by omega) (announced_two (by omega) (by omega)) ?_
  rw [follow_cons (by omega) (by omega) (by omega), hPoint]
  rfl

theorem units_three {n : Nat} (hLow : 0x800 ≤ n) (hHigh : n < 0x10000)
    (hCharacter : n < 0xD800 ∨ 0xDFFF < n) (bytes : List UInt8) :
    units false (UInt8.ofNat (n / 4096 % 16 + 0xE0) :: UInt8.ofNat (n / 64 % 64 + 0x80) ::
        UInt8.ofNat (n % 64 + 0x80) :: bytes) =
      .ok (.ofNat n) :: units false bytes := by
  have hPoint : 64 * (64 * (n / 4096 % 16 + 0xE0 - 0xE0) + (n / 64 % 64 + 0x80 - 0x80)) +
      (n % 64 + 0x80 - 0x80) = n := by omega
  refine units_cons (by omega) (announced_three (by omega) (by omega)) ?_
  rw [follow_cons (by omega) (by split <;> omega) (by split <;> omega),
    follow_cons (by omega) (by omega) (by omega), hPoint]
  rfl

theorem units_four {n : Nat} (hLow : 0x10000 ≤ n) (hHigh : n < 0x110000) (bytes : List UInt8) :
    units false (UInt8.ofNat (n / 262144 % 8 + 0xF0) :: UInt8.ofNat (n / 4096 % 64 + 0x80) ::
        UInt8.ofNat (n / 64 % 64 + 0x80) :: UInt8.ofNat (n % 64 + 0x80) :: bytes) =
      .ok (.ofNat n) :: units false bytes := by
  have hPoint : 64 * (64 * (64 * (n / 262144 % 8 + 0xF0 - 0xF0) + (n / 4096 % 64 + 0x80 - 0x80)) +
      (n / 64 % 64 + 0x80 - 0x80)) + (n % 64 + 0x80 - 0x80) = n := by omega
  refine units_cons (by omega) (announced_four (by omega) (by omega)) ?_
  rw [follow_cons (by omega) (by split <;> omega) (by split <;> omega),
    follow_cons (by omega) (by omega) (by omega), follow_cons (by omega) (by omega) (by omega),
    hPoint]
  rfl

/-- A character is read from its bytes, whatever bytes come behind them. -/
theorem units_character (c : Char) (bytes : List UInt8) :
    units false (pointBytes (.char c) ++ bytes) = .ok (.char c) :: units false bytes := by
  have hPoint : CodePoint.char c = .ofNat c.val.toNat := (CodePoint.ofNat_toNat (.char c)).symm
  have hValid : c.val.toNat < 0xD800 ∨ (0xDFFF < c.val.toNat ∧ c.val.toNat < 0x110000) := c.valid
  rw [pointBytes, String.utf8EncodeChar, hPoint]
  generalize c.val.toNat = n at hValid ⊢
  split
  · exact units_one (by omega) bytes
  · split
    · exact units_two (by omega) (by omega) bytes
    · split
      · exact units_three (by omega) (by omega) (by omega) bytes
      · exact units_four (by omega) (by omega) bytes

theorem decodeLenient_character (c : Char) (bytes : List UInt8) :
    decodeLenient (pointBytes (.char c) ++ bytes) = .char c :: decodeLenient bytes := by
  rw [decodeLenient, units_character]
  rfl

/-! ## A byte of ASCII behind any bytes -/

/-- The bytes that are announced stop in front of a byte of ASCII. -/
theorem follow_append_ascii {b : UInt8} (hb : b.toNat < 0x80) {ranges : List (Nat × Nat)}
    (hRanges : ∀ range ∈ ranges, 0x80 ≤ range.1) (point : Nat) (bytes more : List UInt8) :
    follow point ranges (bytes ++ b :: more) =
      ((follow point ranges bytes).1, (follow point ranges bytes).2 ++ b :: more) := by
  induction ranges generalizing point bytes with
  | nil => simp only [follow]
  | cons range ranges ih =>
    obtain ⟨low, high⟩ := range
    have hLow : 0x80 ≤ low := hRanges (low, high) List.mem_cons_self
    cases bytes with
    | nil =>
      rw [List.nil_append, follow.eq_3, if_neg (by omega)]
      rfl
    | cons d bytes =>
      rw [List.cons_append, follow, follow]
      split
      · exact ih (fun range hMem => hRanges range (List.mem_cons_of_mem _ hMem)) _ bytes
      · rfl

theorem low_of_announced {surrogates : Bool} {lead payload : Nat} {ranges : List (Nat × Nat)}
    (h : announced surrogates lead = some (payload, ranges)) :
    ∀ range ∈ ranges, 0x80 ≤ range.1 := by
  simp only [announced] at h
  repeat' split at h
  all_goals simp only [Option.some.injEq, Prod.mk.injEq, reduceCtorEq] at h
  all_goals
    obtain ⟨-, rfl⟩ := h
    decide

theorem units_append_ascii {b : UInt8} (hb : b.toNat < 0x80) (surrogates : Bool)
    (bytes more : List UInt8) :
    units surrogates (bytes ++ b :: more) =
      units surrogates bytes ++ units surrogates (b :: more) := by
  fun_induction units surrogates bytes with
  | case1 => rfl
  | case2 d bytes hLead ih =>
    rw [List.cons_append, units]
    simp only [hLead]
    rw [ih, List.cons_append]
  | case3 d bytes payload ranges hLead ih =>
    have hFollow := follow_append_ascii hb (low_of_announced hLead) payload bytes more
    have hLength := length_follow_le payload ranges bytes
    rw [List.cons_append, units]
    simp only [hLead, hFollow]
    rw [ih, List.cons_append]
    congr 1
    obtain ⟨point, rest⟩ := follow payload ranges bytes
    cases point with
    | some point => rfl
    | none =>
      have hLeft : (bytes ++ b :: more).length - (rest ++ b :: more).length =
          bytes.length - rest.length := by
        simp only [List.length_append]
        omega
      simp only [hLeft]
      rw [List.take_append_of_le_length (by omega)]

end StyleScaffold.Text
