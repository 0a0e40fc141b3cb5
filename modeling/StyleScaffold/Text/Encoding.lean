import StyleScaffold.Text.Utf8

/-!
# Encodings of messages

A message says by its first bytes how its text is encoded: a byte-order mark tells, and without
one the places of zero bytes do, since its text starts with a character of ASCII. Encodings with
two bytes in a unit join the halves of surrogate pairs; a half without its partner stays alone.
-/

namespace StyleScaffold.Text

/-- Which byte of a unit comes first. -/
inductive ByteOrder where
  | big
  | little
  deriving DecidableEq, Repr

/-- How the code points of a message are written. -/
inductive Encoding where
  | utf8
  | utf16 (order : ByteOrder)
  | utf32 (order : ByteOrder)
  deriving DecidableEq, Repr

/-- The number that the bytes of a unit write. -/
def ByteOrder.number (order : ByteOrder) (bytes : List UInt8) : Nat :=
  let ordered := match order with
    | .big => bytes
    | .little => bytes.reverse
  ordered.foldl (fun n b => 256 * n + b.toNat) 0

/-- The units of two bytes, if none is left over. -/
def pairs? (order : ByteOrder) : List UInt8 → Option (List Nat)
  | [] => some []
  | a :: b :: rest => (pairs? order rest).map (order.number [a, b] :: ·)
  | _ => none

/-- The units of four bytes, if none is left over. -/
def quadruples? (order : ByteOrder) : List UInt8 → Option (List Nat)
  | [] => some []
  | a :: b :: c :: d :: rest =>
    (quadruples? order rest).map (order.number [a, b, c, d] :: ·)
  | _ => none

/-- The text with each surrogate pair as one character. -/
def joinHalves : Text → Text
  | high :: low :: rest =>
    if high.isHighHalf && low.isLowHalf then .ofHalves high low :: joinHalves rest
    else high :: joinHalves (low :: rest)
  | s => s

namespace Encoding

/-- The encoding that the byte-order mark in front tells, and what stands behind the mark. -/
def marked? : List UInt8 → Option (Encoding × List UInt8)
  | 0x00 :: 0x00 :: 0xFE :: 0xFF :: rest => some (.utf32 .big, rest)
  | 0xFF :: 0xFE :: 0x00 :: 0x00 :: rest => some (.utf32 .little, rest)
  | 0xFE :: 0xFF :: rest => some (.utf16 .big, rest)
  | 0xFF :: 0xFE :: rest => some (.utf16 .little, rest)
  | 0xEF :: 0xBB :: 0xBF :: rest => some (.utf8, rest)
  | _ => none

/-- The encoding that the zeros among the first bytes tell. -/
def ofZeros : List UInt8 → Encoding
  | a :: b :: c :: d :: _ =>
    if a = 0 then (if b = 0 then .utf32 .big else .utf16 .big)
    else if b = 0 then (if c = 0 && d = 0 then .utf32 .little else .utf16 .little)
    else .utf8
  | [a, b] => if a = 0 then .utf16 .big else if b = 0 then .utf16 .little else .utf8
  | _ => .utf8

/-- The text of the bytes, surrogates admitted, if all of them encode something. -/
def decode? (e : Encoding) (bytes : List UInt8) : Option Text :=
  match e with
  | .utf8 => decodeAdmitting? bytes
  | .utf16 order => (pairs? order bytes).map fun units => joinHalves (units.map .ofNat)
  | .utf32 order => do
    let points ← quadruples? order bytes
    if points.all (· < 0x110000) then some (points.map .ofNat) else none

end Encoding

/-- The text of a message. -/
def ofMessage? (bytes : List UInt8) : Option Text :=
  match Encoding.marked? bytes with
  | some (encoding, rest) => encoding.decode? rest
  | none => (Encoding.ofZeros bytes).decode? bytes

end StyleScaffold.Text
