import NoteTools.Text.Utf8

/-!
# Form encoding

The query of a request is a list of pairs in the `application/x-www-form-urlencoded` format: ASCII
letters, digits and `*-._` stand for themselves, a space is written `+`, and every other octet of
the UTF-8 text as `%` and two capital hexadecimal digits.

Main definitions:

* `encode`: the written form of a text;
* `encodePairs`: a query of named values.
-/

namespace NoteTools.Text.FormUrl

/-- The hexadecimal digits, capital from ten on. -/
def hexDigit (n : Nat) : Char :=
  if n < 10 then Char.ofNat (48 + n) else Char.ofNat (55 + n)

/-- An octet as a percent sign and two digits. -/
def percent (b : UInt8) : List Char :=
  ['%', hexDigit (b.toNat / 16), hexDigit (b.toNat % 16)]

/-- The octets that stand for themselves. -/
def isPlain (b : UInt8) : Bool :=
  let c := Char.ofNat b.toNat
  b < 0x80 && (c.isAlphanum || c == '*' || c == '-' || c == '.' || c == '_')

/-- The written form of an octet. -/
def encodeByte (b : UInt8) : List Char :=
  if isPlain b then [Char.ofNat b.toNat] else if b = 0x20 then ['+'] else percent b

/-- The written form of a text. -/
def encode (s : String) : String :=
  String.ofList ((Utf8.encode s).flatMap encodeByte)

/-- A query: the pairs as `name=value`, with `&` between them. -/
def encodePairs (pairs : List (String × String)) : String :=
  "&".intercalate (pairs.map fun (name, value) => encode name ++ "=" ++ encode value)

end NoteTools.Text.FormUrl
