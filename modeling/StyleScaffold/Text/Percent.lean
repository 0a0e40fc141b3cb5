import StyleScaffold.Text.Ascii
import StyleScaffold.Text.Hex
import StyleScaffold.Text.Utf8

/-!
# Percent encoding

In an encoded text a byte may be written as a percent sign and two hexadecimal digits. Decoding
takes each longest run of ASCII characters as bytes, resolves the escapes in it and decodes the
bytes leniently; a percent sign without two digits behind it stands for itself.

A query is a list of parameters, with a plus sign for each space in them. One that is read back
keeps the parameters of one name together, at the place of the first of them.
-/

namespace StyleScaffold.Text

/-- The bytes of a run of ASCII characters with its escapes resolved. -/
def unescapedBytes : Text → List UInt8
  | [] => []
  | '%' :: a :: b :: rest =>
    match hexValue? a, hexValue? b with
    | some high, some low => UInt8.ofNat (16 * high + low) :: unescapedBytes rest
    | _, _ => 0x25 :: unescapedBytes (a :: b :: rest)
  | c :: rest => UInt8.ofNat c.toNat :: unescapedBytes rest

/-- The text that a percent-encoded text stands for. -/
def percentDecode : Text → Text
  | [] => []
  | c :: cs =>
    if isAscii c then
      decodeLenient (unescapedBytes (c :: cs.takeWhile isAscii)) ++
        percentDecode (cs.dropWhile isAscii)
    else c :: percentDecode cs
termination_by s => s.length
decreasing_by
  · have := (List.dropWhile_sublist isAscii (l := cs)).length_le
    simp only [List.length_cons]; omega
  · simp

/-- A byte as a percent sign and two capital hexadecimal digits. -/
def percentByte (b : UInt8) : Text := '%' :: (hex 2 b.toNat).map asciiUpper

/-- The text with every character outside the class written by its bytes. -/
def percentEncode (isPlain : CodePoint → Bool) (s : Text) : Text :=
  s.flatMap fun c => if isPlain c then [c] else (pointBytes c).flatMap percentByte

/-- A name or a value as it stands in a query. -/
def queryPart (s : Text) : Text :=
  let encoded := percentEncode (fun c => isNameChar c || c == '.' || c == '~' || c == ' ') s
  encoded.map fun (c : CodePoint) => if c = ' ' then '+' else c

/-- The query that writes parameters. -/
def queryText (parameters : List (Text × Text)) : Text :=
  join ['&'] (parameters.map fun (k, v) => queryPart k ++ "=" ++ queryPart v)

/-- The name or the value that a part of a query writes. -/
def ofQueryPart (s : Text) : Text :=
  percentDecode (s.map fun (c : CodePoint) => if c = '+' then ' ' else c)

/-- The parameters in a query. -/
def queryParameters (s : Text) : List (Text × Text) :=
  let parts := (cut '&' s).filter fun part => ! part.isEmpty
  let found := parts.map fun part =>
    let (k, v) := (halves? '=' part).getD (part, [])
    (ofQueryPart k, ofQueryPart v)
  (found.map Prod.fst).eraseDups.flatMap fun k => found.filter (·.1 = k)

end StyleScaffold.Text
