import StyleScaffold.Text.Basic

/-!
# Bytes of texts

A lead byte announces which bytes may follow it. Decoding reads a lead byte and as many of the
announced bytes as are there: all of them give a character, fewer are one unit of bad input.
Strict decoding fails at the first bad unit, lenient decoding puts a replacement character in
the place of each, and escaping decoding a surrogate in the place of each byte of one.

The bytes of a surrogate follow the same pattern, but are bad input unless surrogates are
admitted. A text without surrogates has the same bytes in every way of encoding.
-/

namespace StyleScaffold.Text

/-- The payload of a lead byte and the range of each byte that has to follow. -/
def announced (surrogates : Bool) (lead : Nat) : Option (Nat × List (Nat × Nat)) :=
  let trail := (0x80, 0xBF)
  if lead < 0x80 then some (lead, [])
  else if lead < 0xC2 then none
  else if lead < 0xE0 then some (lead - 0xC0, [trail])
  else if lead = 0xE0 then some (0, [(0xA0, 0xBF), trail])
  else if lead = 0xED && ! surrogates then some (0xD, [(0x80, 0x9F), trail])
  else if lead < 0xF0 then some (lead - 0xE0, [trail, trail])
  else if lead = 0xF0 then some (0, [(0x90, 0xBF), trail, trail])
  else if lead < 0xF4 then some (lead - 0xF0, [trail, trail, trail])
  else if lead = 0xF4 then some (4, [(0x80, 0x8F), trail, trail])
  else none

/-- Reads the announced bytes. The code point is missing when one of them is, and then the rest
starts at the byte that does not fit. -/
def follow (point : Nat) : List (Nat × Nat) → List UInt8 → Option Nat × List UInt8
  | [], bytes => (some point, bytes)
  | _ :: _, [] => (none, [])
  | (low, high) :: more, b :: bytes =>
    if low ≤ b.toNat ∧ b.toNat ≤ high then follow (64 * point + (b.toNat - 0x80)) more bytes
    else (none, b :: bytes)

theorem length_follow_le (point : Nat) (ranges : List (Nat × Nat)) (bytes : List UInt8) :
    (follow point ranges bytes).2.length ≤ bytes.length := by
  induction ranges generalizing point bytes with
  | nil => simp [follow]
  | cons r more ih =>
    cases bytes with
    | nil => simp [follow]
    | cons b bytes =>
      unfold follow
      split
      · exact Nat.le_succ_of_le (ih _ _)
      · simp

/-- The code points of the bytes, with its bytes in the place of each bad unit. -/
def units (surrogates : Bool) : List UInt8 → List (Except (List UInt8) CodePoint)
  | [] => []
  | b :: bytes =>
    match announced surrogates b.toNat with
    | none => .error [b] :: units surrogates bytes
    | some (payload, ranges) =>
      (match follow payload ranges bytes with
        | (some point, _) => .ok (.ofNat point)
        | (none, rest) => .error (b :: bytes.take (bytes.length - rest.length)))
        :: units surrogates (follow payload ranges bytes).2
termination_by bytes => bytes.length
decreasing_by
  · simp
  · have := length_follow_le payload ranges bytes
    simp only [List.length_cons]; omega

/-- The text that the bytes encode, if all of them do. -/
def decode? (bytes : List UInt8) : Option Text := (units false bytes).mapM Except.toOption

/-- The text that the bytes encode where surrogates are admitted, if all of them do. -/
def decodeAdmitting? (bytes : List UInt8) : Option Text :=
  (units true bytes).mapM Except.toOption

/-- The text that the bytes encode, with a replacement character for each bad unit. -/
def decodeLenient (bytes : List UInt8) : Text :=
  (units false bytes).map fun | .ok c => c | .error _ => '\uFFFD'

/-- The second half of a surrogate pair that stands for a byte that encodes nothing. -/
def escapedByte (b : UInt8) : CodePoint := .ofNat (0xDC00 + b.toNat)

/-- The text that the bytes encode, with a surrogate for each byte of a bad unit. -/
def decodeEscaping (bytes : List UInt8) : Text :=
  (units false bytes).flatMap fun | .ok c => [c] | .error bad => bad.map escapedByte

/-- The bytes of a code point. -/
def pointBytes : CodePoint → List UInt8
  | .char c => String.utf8EncodeChar c
  | .surrogate place =>
    [0xED, UInt8.ofNat (0xA0 + place / 64), UInt8.ofNat (0x80 + place % 64)]

/-- The bytes of a text, surrogates admitted. -/
def encode (s : Text) : List UInt8 := s.flatMap pointBytes

/-- Whether no surrogate stands in the text. -/
def isWellFormed (s : Text) : Bool := s.all fun | .char _ => true | .surrogate _ => false

/-- The bytes of a text, if no surrogate stands in it. -/
def encode? (s : Text) : Option (List UInt8) := if s.isWellFormed then some s.encode else none

/-- The bytes of a code point, a surrogate being the one byte that it stands for, if any. -/
def unescapedPoint? (c : CodePoint) : Option (List UInt8) :=
  match c with
  | .char c => some (String.utf8EncodeChar c)
  | .surrogate _ =>
    if 0xDC80 ≤ c.toNat && c.toNat ≤ 0xDCFF then some [UInt8.ofNat (c.toNat - 0xDC00)] else none

/-- The bytes of a text in which some surrogates stand for single bytes. -/
def encodeEscaping? (s : Text) : Option (List UInt8) :=
  (s.mapM unescapedPoint?).map List.flatten

end StyleScaffold.Text
