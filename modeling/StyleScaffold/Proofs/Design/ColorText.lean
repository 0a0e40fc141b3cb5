import StyleScaffold.Proofs.Design.Recognised
import StyleScaffold.Proofs.Number.Monotone
import StyleScaffold.Proofs.Text.Hex

/-!
# The texts of a colour

A colour with channels between zero and one is written with three bytes: each is the 255-fold of a
channel, first rounded to a floating-point number and then to a whole one. Both steps keep the order,
and at the upper end nothing is rounded, so a byte is at most 255 and has two hexadecimal digits
(`byteOfUnits_le`, `byteOfUnits_mono`).

* `Color.Shows`: both texts of the colour show the bytes.
* `Color.exists_shows`: a colour with channels between zero and one shows bytes, and a larger channel
  never has a smaller byte.
-/

namespace StyleScaffold

open Text

/-- Both are finite numbers, and the first is at most the second. -/
def Binary64.IsAtMost (x y : Binary64) : Prop :=
  ∃ v w, x.number? = some v ∧ y.number? = some w ∧ v ≤ w

namespace Design

/-! ## Bytes -/

/-- The byte of a channel with a number of units. -/
def byteOfUnits (units : Nat) : Nat :=
  roundHalfEven (Binary64.nearestUnits (units * 255) 1) Binary64.unitsPerOne

theorem byteOfUnits_mono {units units' : Nat} (h : units ≤ units') :
    byteOfUnits units ≤ byteOfUnits units' :=
  roundHalfEven_le_roundHalfEven
    (Binary64.nearestUnits_le_nearestUnits (Nat.mul_le_mul_right 255 h) 1) _

/-- The 255-fold of one is not rounded. -/
theorem byteOfUnits_one : byteOfUnits Binary64.unitsPerOne = 255 := by
  have hExact := Binary64.nearestUnits_whole (n := 255) (by decide) Nat.one_pos
  rw [Nat.mul_one] at hExact
  rw [byteOfUnits, Nat.mul_comm Binary64.unitsPerOne, hExact,
    roundHalfEven_mul_self 255 Binary64.unitsPerOne_pos]

theorem byteOfUnits_le {units : Nat} (h : units ≤ Binary64.unitsPerOne) :
    byteOfUnits units ≤ 255 := byteOfUnits_one ▸ byteOfUnits_mono h

theorem byteOfUnits_zero : byteOfUnits 0 = 0 := by
  simp [byteOfUnits, Binary64.nearestUnits, roundHalfEven]

/-! ## Channels -/

/-- Whether a zero is the negative one makes no difference. -/
theorem signed_byteOfUnits {negative : Bool} {units : Nat}
    (h : Binary64.signed negative units = units) :
    Binary64.signed negative (byteOfUnits units) = byteOfUnits units := by
  cases negative with
  | false => rfl
  | true =>
    have hNeg : -(units : Int) = units := h
    obtain rfl : units = 0 := by omega
    rw [byteOfUnits_zero]
    rfl

/-- A channel between zero and one is a number of units, and it has the byte of these. -/
theorem exists_units_of_isChannel {x : Binary64} (h : IsChannel x) :
    ∃ units, units ≤ Binary64.unitsPerOne ∧
      x.number? = some ((units : Rat) / Binary64.unitsPerOne) ∧
      Color.channel x = .ok (byteOfUnits units) := by
  cases x with
  | finite negative units bounded =>
    obtain ⟨hUnits, hSigned⟩ := units_of_isChannel h
    refine ⟨units, hUnits, ?_, ?_⟩
    · rw [Binary64.number?, hSigned, Rat.intCast_natCast]
    · obtain ⟨part, hPart, hFinite⟩ := times_finite negative hUnits
      have hByte : roundHalfEven part Binary64.unitsPerOne = byteOfUnits units := by
        rw [byteOfUnits, Binary64.units_of_ofUnits hFinite]
      rw [Color.channel, Binary64.times, hFinite, Binary64.round?, hByte,
        signed_byteOfUnits hSigned]
  | infinite negative => cases h.choose_spec.1
  | nan => cases h.choose_spec.1

theorem exists_byte_of_isChannel {x : Binary64} (h : IsChannel x) :
    ∃ byte : Nat, byte ≤ 255 ∧ Color.channel x = .ok byte := by
  obtain ⟨units, hUnits, -, hChannel⟩ := exists_units_of_isChannel h
  exact ⟨byteOfUnits units, byteOfUnits_le hUnits, hChannel⟩

/-- Of two channels between zero and one, the larger one has no smaller byte. -/
theorem channel_mono {x y : Binary64} (hx : IsChannel x) (hy : IsChannel y)
    (hLe : x.IsAtMost y) {byte byte' : Nat} (hByte : Color.channel x = .ok byte)
    (hByte' : Color.channel y = .ok byte') : byte ≤ byte' := by
  obtain ⟨units, -, hNumber, hChannel⟩ := exists_units_of_isChannel hx
  obtain ⟨units', -, hNumber', hChannel'⟩ := exists_units_of_isChannel hy
  obtain ⟨v, w, hv, hw, hvw⟩ := hLe
  have hUnit : (0 : Rat) < Binary64.unitsPerOne := Rat.natCast_pos.2 Binary64.unitsPerOne_pos
  have hUnits : units ≤ units' := by
    rw [hNumber, Option.some.injEq] at hv
    rw [hNumber', Option.some.injEq] at hw
    rw [← hv, ← hw, ← Rat.not_lt, Rat.div_lt_iff hUnit, Rat.div_mul_cancel (Rat.ne_of_gt hUnit),
      Rat.not_lt] at hvw
    exact Rat.natCast_le_natCast.1 hvw
  rw [hChannel, Except.ok.injEq, Int.natCast_inj] at hByte
  rw [hChannel', Except.ok.injEq, Int.natCast_inj] at hByte'
  rw [← hByte, ← hByte']
  exact byteOfUnits_mono hUnits

/-! ## Pairs of digits -/

/-- The numbers that a text writes with two hexadecimal digits each. -/
def hexBytes? : Text → Option (List Nat)
  | [] => some []
  | [_] => none
  | high :: low :: rest => do return (← hexNumber? [high, low]) :: (← hexBytes? rest)

theorem hexBytes?_hex_append {n : Nat} (h : n ≤ 255) (rest : Text) :
    hexBytes? (hex 2 n ++ rest) = (hexBytes? rest).map (n :: ·) := by
  have hLength : (hex 2 n).length = 2 := length_hex (by decide) (by omega)
  have hRead := hexNumber?_hex 2 n
  match hex 2 n, hLength, hRead with
  | [high, low], _, hRead =>
    show (do return (← hexNumber? [high, low]) :: (← hexBytes? rest) : Option (List Nat)) = _
    rw [hRead]
    cases hexBytes? rest <;> rfl

theorem hexBytes?_flatMap_hex {bytes : List Nat} (h : ∀ n ∈ bytes, n ≤ 255) :
    hexBytes? (bytes.flatMap (hex 2)) = some bytes := by
  induction bytes with
  | nil => rfl
  | cons n rest ih =>
    obtain ⟨hFirst, hRest⟩ := List.forall_mem_cons.1 h
    rw [List.flatMap_cons, hexBytes?_hex_append hFirst, ih hRest, Option.map_some]

theorem length_flatMap_hex {bytes : List Nat} (h : ∀ n ∈ bytes, n ≤ 255) :
    (bytes.flatMap (hex 2)).length = 2 * bytes.length := by
  induction bytes with
  | nil => rfl
  | cons n rest ih =>
    obtain ⟨hFirst, hRest⟩ := List.forall_mem_cons.1 h
    have hPair : (hex 2 n).length = 2 := length_hex (by decide) (Nat.lt_succ_of_le hFirst)
    rw [List.flatMap_cons, List.length_append, ih hRest, hPair, List.length_cons]
    omega

/-! ## Texts -/

namespace Color

/-- The channels of the colour lie between zero and one; its alpha may be any number. -/
def IsOrdinary (c : Color) : Prop := ∀ x ∈ [c.red, c.green, c.blue], IsChannel x

/-- Both texts of the colour show these three bytes: the one with two digits for each, and the other
one as numbers with the alpha behind them. -/
structure Shows (c : Color) (red green blue : Nat) : Prop where
  bytes : ∀ n ∈ [red, green, blue], n ≤ 255
  hexText : ∃ digits, c.hexText = .ok ('#' :: digits) ∧ digits.length = 6 ∧
    (∀ d ∈ digits, d ∈ ofString "0123456789abcdef") ∧ hexBytes? digits = some [red, green, blue]
  functionText : c.functionText = .ok
    ("rgba(" ++ join ", " [ofNat red, ofNat green, ofNat blue, c.alpha.rounded] ++ ")")

theorem Shows.unique {c : Color} {red green blue red' green' blue' : Nat}
    (h : c.Shows red green blue) (h' : c.Shows red' green' blue') :
    red = red' ∧ green = green' ∧ blue = blue' := by
  obtain ⟨digits, hText, -, -, hRead⟩ := h.hexText
  obtain ⟨digits', hText', -, -, hRead'⟩ := h'.hexText
  have hSame : digits = digits' := by
    rw [hText, Except.ok.injEq, List.cons.injEq] at hText'
    exact hText'.2
  rw [hSame, hRead'] at hRead
  simp only [Option.some.injEq, List.cons.injEq, and_true] at hRead
  exact ⟨hRead.1.symm, hRead.2.1.symm, hRead.2.2.symm⟩

theorem shows_of_channel {c : Color} {red green blue : Nat} (hRed : channel c.red = .ok red)
    (hGreen : channel c.green = .ok green) (hBlue : channel c.blue = .ok blue)
    (hBytes : ∀ n ∈ [red, green, blue], n ≤ 255) : c.Shows red green blue := by
  have hChannels : c.channels = .ok ((red : Int), (green : Int), (blue : Int)) := by
    rw [channels, hRed, hGreen, hBlue]
    rfl
  have hDigits : c.hexText = .ok ('#' :: [red, green, blue].flatMap (hex 2)) := by
    have hPairs : [red, green, blue].flatMap (hex 2) = hex 2 red ++ hex 2 green ++ hex 2 blue := by
      simp
    rw [Color.hexText, hChannels, hPairs]
    rfl
  refine ⟨hBytes, ⟨_, hDigits, length_flatMap_hex hBytes, ?_, hexBytes?_flatMap_hex hBytes⟩, ?_⟩
  · intro d hd
    obtain ⟨n, -, hDigit⟩ := List.mem_flatMap.1 hd
    exact mem_hex hDigit
  · rw [Color.functionText, hChannels]
    rfl

theorem IsOrdinary.exists_bytes {c : Color} (h : c.IsOrdinary) :
    ∃ red green blue : Nat, channel c.red = .ok red ∧ channel c.green = .ok green ∧
      channel c.blue = .ok blue ∧ c.Shows red green blue := by
  obtain ⟨red, hRedByte, hRed⟩ := exists_byte_of_isChannel (h c.red (by simp))
  obtain ⟨green, hGreenByte, hGreen⟩ := exists_byte_of_isChannel (h c.green (by simp))
  obtain ⟨blue, hBlueByte, hBlue⟩ := exists_byte_of_isChannel (h c.blue (by simp))
  refine ⟨red, green, blue, hRed, hGreen, hBlue, shows_of_channel hRed hGreen hBlue ?_⟩
  simp [hRedByte, hGreenByte, hBlueByte]

/-- A colour with channels between zero and one shows bytes, and when a channel goes up, its byte does
not go down. -/
theorem exists_shows {c : Color} (h : c.IsOrdinary) :
    ∃ red green blue, c.Shows red green blue ∧
      ∀ {c' : Color} {red' green' blue'}, c'.IsOrdinary → c'.Shows red' green' blue' →
        (c.red.IsAtMost c'.red → red ≤ red') ∧ (c.green.IsAtMost c'.green → green ≤ green') ∧
          (c.blue.IsAtMost c'.blue → blue ≤ blue') := by
  obtain ⟨red, green, blue, hRed, hGreen, hBlue, hShows⟩ := h.exists_bytes
  refine ⟨red, green, blue, hShows, ?_⟩
  intro c' red' green' blue' h' hShows'
  obtain ⟨_, _, _, hRed', hGreen', hBlue', hOwn⟩ := h'.exists_bytes
  -- what is shown is what the channels are rounded to
  obtain ⟨rfl, rfl, rfl⟩ := hOwn.unique hShows'
  exact ⟨fun hLe => channel_mono (h _ (by simp)) (h' _ (by simp)) hLe hRed hRed',
    fun hLe => channel_mono (h _ (by simp)) (h' _ (by simp)) hLe hGreen hGreen',
    fun hLe => channel_mono (h _ (by simp)) (h' _ (by simp)) hLe hBlue hBlue'⟩

/-- A negative zero, a half and a one, beside white: the half has the even byte 128 of the two next
to 127.5. -/
theorem exists_shows_half :
    let half : Color := ⟨.signedZero true, .ofRatio false 1 2, .one, .one⟩
    let white : Color := ⟨.one, .one, .one, .one⟩
    half.hexText = .ok "#0080ff" ∧ half.IsOrdinary ∧ white.IsOrdinary ∧
      half.green.IsAtMost white.green ∧
      ∃ red green blue, half.Shows red green blue ∧
        ∀ {red' green' blue'}, white.Shows red' green' blue' → green ≤ green' := by
  intro half white
  have hZero : IsChannel (.signedZero true) := ⟨0, by decide +kernel, by decide, by decide⟩
  have hHalf : IsChannel (.ofRatio false 1 2) :=
    ⟨1 / 2, by decide +kernel, by decide +kernel, by decide +kernel⟩
  have hOne : IsChannel .one := ⟨1, by decide +kernel, by decide, by decide⟩
  have hOrdinary : half.IsOrdinary := by simp [IsOrdinary, half, hZero, hHalf, hOne]
  have hWhite : white.IsOrdinary := by simp [IsOrdinary, white, hOne]
  have hLe : half.green.IsAtMost white.green :=
    ⟨1 / 2, 1, by decide +kernel, by decide +kernel, by decide +kernel⟩
  obtain ⟨red, green, blue, hShows, hMono⟩ := exists_shows hOrdinary
  exact ⟨by decide +kernel, hOrdinary, hWhite, hLe, red, green, blue, hShows,
    fun hShows' => (hMono hWhite hShows').2.1 hLe⟩

end Color

end Design

end StyleScaffold
