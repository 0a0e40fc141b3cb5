import StyleScaffold.Proofs.Text.LowerCase
import StyleScaffold.Proofs.Text.Trim
import StyleScaffold.Text.Digit
import StyleScaffold.Text.Hex

/-!
# Plain words

Numbers, colours and keywords are written with letters and digits of ASCII and a few marks. None
of these characters is blank, and none has a meaning in a stylesheet. A text of such words with
one space between neighbours (`PlainWords`) is trimmed, and holds nothing but the words' characters
and spaces.

* `plain_ofNat`, `isWord_ofInt`, `plain_hex`: whole numbers are plain, whatever their sign and base.
* `length_ofNat_le_iff`: the length of a number's digits.
-/

namespace StyleScaffold.Text

/-- Letters, digits, and the marks of numbers and colours. -/
def isPlainChar (c : CodePoint) : Bool := isSchemeChar c || c = '#'

/-- The text holds plain characters only. -/
def Plain (s : Text) : Prop := ∀ c ∈ s, isPlainChar c = true

instance (s : Text) : Decidable (Plain s) :=
  inferInstanceAs (Decidable (∀ c ∈ s, isPlainChar c = true))

/-- A plain text that is not empty. -/
def IsWord (w : Text) : Prop := w ≠ [] ∧ Plain w

instance (w : Text) : Decidable (IsWord w) := inferInstanceAs (Decidable (_ ∧ _))

/-- Plain words with one space between neighbours. -/
inductive PlainWords : Text → Prop where
  | word {w : Text} (isWord : IsWord w) : PlainWords w
  | space {w rest : Text} (isWord : IsWord w) (more : PlainWords rest) :
      PlainWords (w ++ .char ' ' :: rest)

/-! ## Plain characters -/

theorem isPlainChar_iff {c : CodePoint} :
    isPlainChar c = true ↔
      isAsciiAlnum c = true ∨ c = '+' ∨ c = '.' ∨ c = '-' ∨ c = '#' := by
  simp [isPlainChar, isSchemeChar, or_assoc]

theorem isBlank_of_isPlainChar {c : CodePoint} (h : isPlainChar c = true) : isBlank c = false := by
  rw [isPlainChar_iff, isAsciiAlnum_iff, isAsciiLetter_iff] at h
  rcases h with hAlnum | rfl | rfl | rfl | rfl
  · rw [Bool.eq_false_iff]
    intro hBlank
    simp only [isBlank, Bool.or_eq_true, Bool.and_eq_true, decide_eq_true_eq, beq_iff_eq] at hBlank
    omega
  all_goals decide

theorem Plain.append {s t : Text} (hs : Plain s) (ht : Plain t) : Plain (s ++ t) := by
  intro c hc
  rcases List.mem_append.1 hc with hc | hc
  · exact hs c hc
  · exact ht c hc

theorem Plain.of_subset {s t : Text} (ht : Plain t) (h : s ⊆ t) : Plain s :=
  fun c hc => ht c (h hc)

theorem Plain.cons {c : CodePoint} {s : Text} (hc : isPlainChar c = true) (hs : Plain s) :
    Plain (c :: s) := List.forall_mem_cons.2 ⟨hc, hs⟩

theorem plain_copies {c : CodePoint} (hc : isPlainChar c = true) (n : Nat) : Plain (copies n c) := by
  intro d hd
  rw [List.eq_of_mem_replicate hd]
  exact hc

/-! ## Digits -/

/-- The digits of a number are digits of its base. -/
theorem forall_mem_toDigits {p : CodePoint → Prop} {base : Nat} (hBase : 1 < base)
    (hDigit : ∀ d < base, p (.char (Nat.digitChar d))) (n : Nat) :
    ∀ c ∈ ((Nat.toDigits base n).map CodePoint.char : Text), p c := by
  induction n using Nat.strongRecOn with
  | ind n ih =>
    by_cases hn : n < base
    · rw [Nat.toDigits_of_lt_base hn]
      exact List.forall_mem_singleton.2 (hDigit n hn)
    · have hLess : n / base < n := Nat.div_lt_self (by omega) hBase
      have hLast : n % base < base := Nat.mod_lt n (by omega)
      rw [Nat.toDigits_of_base_le hBase (by omega), List.map_append, List.forall_mem_append]
      exact ⟨ih (n / base) hLess, List.forall_mem_singleton.2 (hDigit (n % base) hLast)⟩

theorem plain_toDigits {base : Nat} (hBase : 1 < base) (hLimit : base ≤ 16) (n : Nat) :
    Plain ((Nat.toDigits base n).map .char) := by
  have hDigit : ∀ d < 16, isPlainChar (.char (Nat.digitChar d)) = true := by decide
  exact forall_mem_toDigits hBase (fun d hd => hDigit d (by omega)) n

theorem plain_ofNat (n : Nat) : Plain (ofNat n) := plain_toDigits (by decide) (by decide) n

theorem plain_ofInt (n : Int) : Plain (ofInt n) := by
  cases n with
  | ofNat n => exact plain_ofNat n
  | negSucc n => exact Plain.cons (by decide) (plain_ofNat (n + 1))

theorem plain_hex (width n : Nat) : Plain (hex width n) :=
  (plain_copies (by decide) _).append (plain_toDigits (by decide) (by decide) n)

theorem ofNat_ne_nil (n : Nat) : ofNat n ≠ [] := by
  rw [ofNat, ne_eq, List.map_eq_nil_iff]
  exact Nat.toDigits_ne_nil

theorem isWord_ofInt (n : Int) : IsWord (ofInt n) := by
  refine ⟨?_, plain_ofInt n⟩
  cases n with
  | ofNat n => exact ofNat_ne_nil n
  | negSucc n => exact List.cons_ne_nil _ _

theorem ofNat_injective {n k : Nat} (h : ofNat n = ofNat k) : n = k := by
  have hDigits : Nat.toDigits 10 n = Nat.toDigits 10 k := by
    refine (List.map_inj_right ?_).1 h
    intro a b hab
    cases hab
    rfl
  calc
    n = Nat.ofDigitChars 10 (Nat.toDigits 10 n) 0 := Nat.ofDigitChars_ten_toDigits.symm
    _ = Nat.ofDigitChars 10 (Nat.toDigits 10 k) 0 := by rw [hDigits]
    _ = k := Nat.ofDigitChars_ten_toDigits

theorem length_ofNat_le_iff {n k : Nat} (hk : 0 < k) : (ofNat n).length ≤ k ↔ n < 10 ^ k := by
  rw [ofNat, List.length_map]
  exact Nat.length_toDigits_le_iff (by decide) hk

/-! ## Words -/

theorem IsWord.append {w t : Text} (hw : IsWord w) (ht : Plain t) : IsWord (w ++ t) :=
  ⟨List.append_ne_nil_of_left_ne_nil hw.1 t, hw.2.append ht⟩

theorem PlainWords.ne_nil {s : Text} (h : PlainWords s) : s ≠ [] := by
  cases h with
  | word isWord => exact isWord.1
  | space _ _ => simp

theorem PlainWords.of_mem {s : Text} (h : PlainWords s) {c : CodePoint} (hc : c ∈ s) :
    c = ' ' ∨ isPlainChar c = true := by
  induction h with
  | word isWord => exact Or.inr (isWord.2 c hc)
  | space isWord _ ih =>
    rcases List.mem_append.1 hc with hc | hc
    · exact Or.inr (isWord.2 c hc)
    rcases List.mem_cons.1 hc with hSpace | hc
    · exact Or.inl hSpace
    · exact ih hc

theorem PlainWords.trimmed {s : Text} (h : PlainWords s) : Trimmed s := by
  induction h with
  | word isWord =>
    refine ⟨?_, ?_⟩
    · intro c hc
      exact isBlank_of_isPlainChar (isWord.2 c (List.mem_of_mem_head? hc))
    · intro c hc
      exact isBlank_of_isPlainChar (isWord.2 c (List.mem_of_getLast? hc))
  | @space w rest isWord more ih =>
    refine ⟨?_, ?_⟩
    · intro c hc
      obtain ⟨d, t, rfl⟩ := List.exists_cons_of_ne_nil isWord.1
      obtain rfl : d = c := by simpa using hc
      exact isBlank_of_isPlainChar (isWord.2 d List.mem_cons_self)
    · intro c hc
      obtain ⟨d, t, hRest⟩ := List.exists_cons_of_ne_nil more.ne_nil
      apply ih.last
      rw [hRest] at hc ⊢
      simpa using hc

/-- Words joined by spaces. -/
theorem plainWords_join {ws : List Text} (hne : ws ≠ []) (h : ∀ w ∈ ws, IsWord w) :
    PlainWords (join [.char ' '] ws) := by
  induction ws with
  | nil => exact absurd rfl hne
  | cons w rest ih =>
    have hWord := h w List.mem_cons_self
    by_cases hRest : rest = []
    · rw [hRest, join_singleton]
      exact .word hWord
    · have hMore := ih hRest fun w hw => h w (List.mem_cons_of_mem _ hw)
      obtain ⟨t, more, rfl⟩ := List.exists_cons_of_ne_nil hRest
      rw [join_cons_cons, List.append_assoc, List.singleton_append]
      exact .space hWord hMore

end StyleScaffold.Text
