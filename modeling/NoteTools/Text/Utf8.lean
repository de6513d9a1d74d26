/-!
# UTF-8

Text is written as UTF-8 and read back piece by piece: each piece is a character, or a mark for a
malformed piece. A malformed piece is the longest start of a character's octets that cannot be
continued, or a single octet that starts none; a lossy reading shows each as U+FFFD.

Main definitions:

* `encode`: the octets of a text;
* `pieces`: the pieces of a list of octets;
* `decode?`, `lossy`: the text of the octets, when all of them are well formed and always.
-/

namespace NoteTools.Text.Utf8

/-- The octets of a text. -/
def encode (s : String) : List UInt8 :=
  s.toList.flatMap String.utf8EncodeChar

/-- An octet that continues a character. -/
def isTail (b : UInt8) : Bool :=
  0x80 ≤ b && b ≤ 0xBF

/-- The six bits that a continuing octet carries. -/
def tailBits (b : UInt8) : Nat :=
  b.toNat % 0x40

/-- The octets that may follow the first octet of a character of three. -/
def isSecondOfThree (a b : UInt8) : Bool :=
  if a == 0xE0 then 0xA0 ≤ b && b ≤ 0xBF
  else if a == 0xED then 0x80 ≤ b && b ≤ 0x9F
  else isTail b

/-- The octets that may follow the first octet of a character of four. -/
def isSecondOfFour (a b : UInt8) : Bool :=
  if a == 0xF0 then 0x90 ≤ b && b ≤ 0xBF
  else if a == 0xF4 then 0x80 ≤ b && b ≤ 0x8F
  else isTail b

/-- The pieces of a list of octets: its characters, with `none` for each malformed piece. -/
def pieces : List UInt8 → List (Option Char)
  | [] => []
  | a :: s =>
    if a < 0x80 then some (Char.ofNat a.toNat) :: pieces s
    else if 0xC2 ≤ a && a ≤ 0xDF then
      match s with
      | [] => [none]
      | b :: t =>
        if isTail b then
          some (Char.ofNat (a.toNat % 0x20 * 0x40 + tailBits b)) :: pieces t
        else none :: pieces (b :: t)
    else if 0xE0 ≤ a && a ≤ 0xEF then
      match s with
      | [] => [none]
      | b :: t =>
        if isSecondOfThree a b then
          match t with
          | [] => [none]
          | c :: u =>
            if isTail c then
              some (Char.ofNat (a.toNat % 0x10 * 0x1000 + tailBits b * 0x40 + tailBits c))
                :: pieces u
            else none :: pieces (c :: u)
        else none :: pieces (b :: t)
    else if 0xF0 ≤ a && a ≤ 0xF4 then
      match s with
      | [] => [none]
      | b :: t =>
        if isSecondOfFour a b then
          match t with
          | [] => [none]
          | c :: u =>
            if isTail c then
              match u with
              | [] => [none]
              | d :: v =>
                if isTail d then
                  some (Char.ofNat (a.toNat % 0x08 * 0x40000 + tailBits b * 0x1000
                    + tailBits c * 0x40 + tailBits d)) :: pieces v
                else none :: pieces (d :: v)
            else none :: pieces (c :: u)
        else none :: pieces (b :: t)
    else none :: pieces s

/-- The text of well-formed octets. -/
def decode? (bytes : List UInt8) : Option String :=
  ((pieces bytes).mapM id).map String.ofList

/-- The text of any octets, with U+FFFD for each malformed piece. -/
def lossy (bytes : List UInt8) : String :=
  String.ofList ((pieces bytes).map (·.getD '\uFFFD'))

end NoteTools.Text.Utf8
