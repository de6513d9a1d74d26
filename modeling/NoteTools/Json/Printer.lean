import NoteTools.Json.Basic

/-!
# JSON text

The compact text of a value: no blanks between tokens, members in the order they are held. In a
text the quote, the backslash and the control characters below U+0020 are escaped, five of them by
a letter; every other character stands for itself.

Main definitions:

* `escape`: the escaped form of a text's characters;
* `Json.text`: the text of a value.
-/

namespace NoteTools.Json

/-- The small hexadecimal digits. -/
def hexDigit (n : Nat) : Char :=
  if n < 10 then Char.ofNat (48 + n) else Char.ofNat (87 + n)

/-- The escaped form of one character. -/
def escapeChar (c : Char) : List Char :=
  if c = '"' then ['\\', '"']
  else if c = '\\' then ['\\', '\\']
  else if c = '\x08' then ['\\', 'b']
  else if c = '\x0c' then ['\\', 'f']
  else if c = '\n' then ['\\', 'n']
  else if c = '\r' then ['\\', 'r']
  else if c = '\t' then ['\\', 't']
  else if c.toNat < 0x20 then
    ['\\', 'u', '0', '0', hexDigit (c.toNat / 16), hexDigit (c.toNat % 16)]
  else [c]

/-- The escaped form of a text's characters. -/
def escape (cs : List Char) : List Char :=
  cs.flatMap escapeChar

/-- A text between quotes. -/
def quoted (s : String) : List Char :=
  '"' :: escape s.toList ++ ['"']

/-- The written form of a number. -/
def numberText : Number → List Char
  | .int i => (toString i).toList
  | .real x => x.text.toList

mutual

/-- The characters of a value's text. -/
def chars : Json → List Char
  | .null => ['n', 'u', 'l', 'l']
  | .bool true => ['t', 'r', 'u', 'e']
  | .bool false => ['f', 'a', 'l', 's', 'e']
  | .num n => numberText n
  | .str s => quoted s
  | .arr [] => ['[', ']']
  | .arr (item :: items) => '[' :: chars item ++ itemsChars items ++ [']']
  | .obj [] => ['{', '}']
  | .obj ((key, value) :: members) =>
    '{' :: quoted key ++ ':' :: chars value ++ membersChars members ++ ['}']

/-- The items after the first, each behind a comma. -/
def itemsChars : List Json → List Char
  | [] => []
  | item :: items => ',' :: chars item ++ itemsChars items

/-- The members after the first, each behind a comma. -/
def membersChars : List (String × Json) → List Char
  | [] => []
  | (key, value) :: members => ',' :: quoted key ++ ':' :: chars value ++ membersChars members

end

/-- The compact text of a value. -/
def text (j : Json) : String :=
  String.ofList j.chars

end NoteTools.Json
