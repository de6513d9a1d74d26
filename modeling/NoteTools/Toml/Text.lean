import NoteTools.Numeric.Digits

/-!
# Texts of a settings file

A text stands between double quotes, with escapes behind backslashes, or between single quotes,
where every character stands for itself. Three quotes on each side allow line ends inside; one line
end directly behind the opening quotes does not count, and up to two quotes may stand directly
before the closing ones. Between three double quotes a backslash at the end of a line removes it and
all blanks and line ends behind it.

Main definitions:

* `readBasic`, `readLiteral`: the inside of a text on one line, and the rest;
* `readBasicLines`, `readLiteralLines`: the inside of a text on several lines, and the rest.
-/

namespace NoteTools.Toml

/-- A control character other than the tab, which stands in no text and no comment. -/
def isControl (c : Char) : Bool :=
  (c.toNat < 0x20 && c != '\t') || c.toNat == 0x7F

/-- A space or a tab. -/
def isBlank (c : Char) : Bool :=
  c == ' ' || c == '\t'

/-- The character that a letter behind a backslash stands for. -/
def escapeLetter? : Char → Option Char
  | 'b' => some '\x08'
  | 't' => some '\t'
  | 'n' => some '\n'
  | 'f' => some '\x0c'
  | 'r' => some '\r'
  | 'e' => some '\x1b'
  | '"' => some '"'
  | '\\' => some '\\'
  | _ => none

/-- The character whose number is written in hexadecimal digits. -/
def scalar? (digits : List Char) : Option Char := do
  let n ← Numeric.readDigits? 16 digits
  if n.isValidChar then some (Char.ofNat n) else none

/-- A character put in front of what has been read, if both are there. -/
def consRead (c : Option Char) (read : Option (List Char × List Char)) :
    Option (List Char × List Char) := do
  let (cs, rest) ← read
  return ((← c) :: cs, rest)

/-- Reads a text from behind its double quote. -/
def readBasic : List Char → Option (List Char × List Char)
  | [] => none
  | '"' :: rest => some ([], rest)
  | '\\' :: 'x' :: a :: b :: rest => consRead (scalar? [a, b]) (readBasic rest)
  | '\\' :: 'u' :: a :: b :: c :: d :: rest => consRead (scalar? [a, b, c, d]) (readBasic rest)
  | '\\' :: 'U' :: a :: b :: c :: d :: e :: f :: g :: h :: rest =>
    consRead (scalar? [a, b, c, d, e, f, g, h]) (readBasic rest)
  | '\\' :: c :: rest => consRead (escapeLetter? c) (readBasic rest)
  | c :: rest => if isControl c then none else consRead (some c) (readBasic rest)

/-- Reads a text from behind its single quote. -/
def readLiteral : List Char → Option (List Char × List Char)
  | [] => none
  | '\'' :: rest => some ([], rest)
  | c :: rest => if isControl c then none else consRead (some c) (readLiteral rest)

/-- Drops one line end at the front. -/
def dropLineEnd : List Char → List Char
  | '\n' :: rest => rest
  | '\r' :: '\n' :: rest => rest
  | cs => cs

/-- Where the reader of a text on several lines is. -/
inductive LinesState where
  /-- In the text. -/
  | inText
  /-- Behind a backslash at the end of a line, before the line end. -/
  | beforeLineEnd
  /-- Behind that line end, before the next character that counts. -/
  | behindLineEnd
  deriving DecidableEq

/-- Reads a text from behind its three double quotes. -/
def readBasicLines : LinesState → List Char → Option (List Char × List Char)
  | _, [] => none
  | .beforeLineEnd, '\r' :: '\n' :: rest => readBasicLines .behindLineEnd rest
  | .beforeLineEnd, c :: rest =>
    if c = '\n' then readBasicLines .behindLineEnd rest
    else if isBlank c then readBasicLines .beforeLineEnd rest
    else none
  | .behindLineEnd, '\r' :: '\n' :: rest => readBasicLines .behindLineEnd rest
  | _, '"' :: '"' :: '"' :: '"' :: '"' :: rest => some (['"', '"'], rest)
  | _, '"' :: '"' :: '"' :: '"' :: rest => some (['"'], rest)
  | _, '"' :: '"' :: '"' :: rest => some ([], rest)
  | _, '\\' :: 'x' :: a :: b :: rest => consRead (scalar? [a, b]) (readBasicLines .inText rest)
  | _, '\\' :: 'u' :: a :: b :: c :: d :: rest =>
    consRead (scalar? [a, b, c, d]) (readBasicLines .inText rest)
  | _, '\\' :: 'U' :: a :: b :: c :: d :: e :: f :: g :: h :: rest =>
    consRead (scalar? [a, b, c, d, e, f, g, h]) (readBasicLines .inText rest)
  | _, '\\' :: c :: rest =>
    if isBlank c then readBasicLines .beforeLineEnd rest
    else if c = '\n' then readBasicLines .behindLineEnd rest
    else if c = '\r' then readBasicLines .beforeLineEnd (c :: rest)
    else consRead (escapeLetter? c) (readBasicLines .inText rest)
  | _, '\r' :: '\n' :: rest => do
    let (cs, rest) ← readBasicLines .inText rest
    return ('\r' :: '\n' :: cs, rest)
  | state, c :: rest =>
    if state = .behindLineEnd ∧ (isBlank c ∨ c = '\n') then readBasicLines .behindLineEnd rest
    else if isControl c && c != '\n' then none
    else consRead (some c) (readBasicLines .inText rest)

/-- Reads a text from behind its three single quotes. -/
def readLiteralLines : List Char → Option (List Char × List Char)
  | [] => none
  | '\'' :: '\'' :: '\'' :: '\'' :: '\'' :: rest => some (['\'', '\''], rest)
  | '\'' :: '\'' :: '\'' :: '\'' :: rest => some (['\''], rest)
  | '\'' :: '\'' :: '\'' :: rest => some ([], rest)
  | '\r' :: '\n' :: rest => do
    let (cs, rest) ← readLiteralLines rest
    return ('\r' :: '\n' :: cs, rest)
  | c :: rest =>
    if isControl c && c != '\n' then none else consRead (some c) (readLiteralLines rest)

end NoteTools.Toml
