import NoteTools.Text.Unprintable

/-!
# Shown texts

A text is shown in a message between double quotes. Quotes, backslashes and the commonest controls
are written with a backslash and a letter, other unprintable characters with their number. The path
of a file is shown likewise, and single quotes in it get a backslash too.

Main definitions:

* `shownChars`: the shown form of a text's characters;
* `shown`, `shownPath`: the shown form of a text and of a path.
-/

namespace NoteTools.Text

/-- The characters that are written with a backslash and a letter. -/
def escapeLetter? : Char → Option Char
  | '\x00' => some '0'
  | '\t' => some 't'
  | '\r' => some 'r'
  | '\n' => some 'n'
  | '\\' => some '\\'
  | '"' => some '"'
  | _ => none

/-- The shown form of a character. -/
def shownChar (c : Char) : List Char :=
  match escapeLetter? c with
  | some letter => ['\\', letter]
  | none =>
    if isUnprintable c then ['\\', 'u', '{'] ++ Nat.toDigits 16 c.toNat ++ ['}'] else [c]

/-- The shown form of a text's characters. -/
def shownChars (cs : List Char) : List Char :=
  cs.flatMap shownChar

/-- A text between double quotes. -/
def shown (s : String) : String :=
  String.ofList ('"' :: shownChars s.toList ++ ['"'])

/-- The path of a file between double quotes. -/
def shownPath (path : String) : String :=
  let char (c : Char) : List Char := if c = '\'' then ['\\', '\''] else shownChar c
  String.ofList ('"' :: path.toList.flatMap char ++ ['"'])

end NoteTools.Text
