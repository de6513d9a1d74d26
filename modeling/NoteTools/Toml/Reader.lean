import NoteTools.Toml.Scalar
import NoteTools.Toml.Text

/-!
# Reading a settings file

A settings file is a list of statements, each on lines of its own: a header opens a table, a doubled
header opens a table at the end of an array, and a pair puts a value under a key of the table opened
last. Blanks, line ends and comments may stand between the parts of an array and of a table between
braces; a comma may stand behind their last part.

Main definitions:

* `Statement`, `readStatements`;
* `readPath`, `readValue`: a dotted key, and a value.
-/

namespace NoteTools.Toml

open Text (breakAt)

/-! ## Gaps -/

/-- The rest from the next character on that is no blank. -/
def skipBlanks (cs : List Char) : List Char :=
  cs.dropWhile isBlank

/-- The rest from the next character on that is in no blank, line end or comment. -/
def skipGaps (inComment : Bool) : List Char → Option (List Char)
  | [] => some []
  | '\n' :: rest => skipGaps false rest
  | '\r' :: '\n' :: rest => skipGaps false rest
  | c :: rest =>
    if inComment then (if isControl c then none else skipGaps true rest)
    else if isBlank c then skipGaps false rest
    else if c = '#' then skipGaps true rest
    else some (c :: rest)

/-- Nothing but a comment follows on the line. -/
def endsLine (cs : List Char) : Bool :=
  match skipBlanks cs with
  | [] => true
  | '\n' :: _ => true
  | '\r' :: '\n' :: _ => true
  | '#' :: _ => true
  | _ => false

/-! ## Keys -/

/-- A character of a bare key. -/
def isKeyChar (c : Char) : Bool :=
  c.isAlphanum || c == '_' || c == '-'

/-- A text that has been read. -/
def asText (read : Option (List Char × List Char)) : Option (String × List Char) :=
  read.map fun (cs, rest) => (String.ofList cs, rest)

/-- Reads one part of a key. -/
def readKey (cs : List Char) : Option (String × List Char) :=
  match cs with
  | '"' :: rest => asText (readBasic rest)
  | '\'' :: rest => asText (readLiteral rest)
  | _ =>
    let (key, rest) := breakAt (fun c => !isKeyChar c) cs
    if key.isEmpty then none else some (String.ofList key, rest)

/-- Reads a dotted key: the parts before the last one, and the last one. The number bounds the
parts. -/
def readPath : Nat → List Char → Option ((List String × String) × List Char)
  | 0, _ => none
  | parts + 1, cs => do
    let (key, rest) ← readKey (skipBlanks cs)
    match skipBlanks rest with
    | '.' :: rest =>
      let ((path, last), rest) ← readPath parts rest
      return ((key :: path, last), rest)
    | rest => return (([], key), rest)

/-! ## Values -/

/-- A character of a bare word. -/
def isWordChar (c : Char) : Bool :=
  isKeyChar c || c == '+' || c == '.' || c == ':'

/-- Reads a bare word. A time may stand behind a day and a space. -/
def readWord (cs : List Char) : Option (Value × List Char) :=
  let (word, rest) := breakAt (fun c => !isWordChar c) cs
  let (word, rest) := match rest with
    | ' ' :: c :: time =>
      if isDay word && c.isDigit then
        let (clock, rest) := breakAt (fun c => !isWordChar c) (c :: time)
        (word ++ ' ' :: clock, rest)
      else (word, rest)
    | _ => (word, rest)
  (readWord? word).map fun v => (v, rest)

/-- A text as a value. -/
def textValue (read : Option (List Char × List Char)) : Option (Value × List Char) :=
  (asText read).map fun (s, rest) => (.text s, rest)

mutual

/-- Reads a value. The number bounds the steps. -/
def readValue : Nat → List Char → Option (Value × List Char)
  | 0, _ => none
  | steps + 1, cs =>
    match cs with
    | '"' :: '"' :: '"' :: rest => textValue (readBasicLines .inText (dropLineEnd rest))
    | '"' :: rest => textValue (readBasic rest)
    | '\'' :: '\'' :: '\'' :: rest => textValue (readLiteralLines (dropLineEnd rest))
    | '\'' :: rest => textValue (readLiteral rest)
    | '[' :: rest => do
      let (items, rest) ← readItems steps rest
      return (.array false items, rest)
    | '{' :: rest => do
      let (entries, rest) ← readEntries steps [] rest
      return (.table .braced entries, rest)
    | _ => readWord cs

/-- Reads the items of an array and the closing bracket. -/
def readItems : Nat → List Char → Option (List Value × List Char)
  | 0, _ => none
  | steps + 1, cs => do
    match ← skipGaps false cs with
    | ']' :: rest => return ([], rest)
    | cs =>
      let (v, rest) ← readValue steps cs
      match ← skipGaps false rest with
      | ',' :: rest =>
        let (vs, rest) ← readItems steps rest
        return (v :: vs, rest)
      | ']' :: rest => return ([v], rest)
      | _ => none

/-- Reads the pairs of a table between braces, and the closing brace. -/
def readEntries : Nat → Entries → List Char → Option (Entries × List Char)
  | 0, _, _ => none
  | steps + 1, entries, cs => do
    match ← skipGaps false cs with
    | '}' :: rest => return (entries, rest)
    | cs =>
      let ((path, key), rest) ← readPath cs.length cs
      match rest with
      | '=' :: rest =>
        let (v, rest) ← readValue steps (skipBlanks rest)
        let entries ← putPair path key v .braced entries
        match ← skipGaps false rest with
        | ',' :: rest => readEntries steps entries rest
        | '}' :: rest => return (entries, rest)
        | _ => none
      | _ => none

end

/-! ## Statements -/

/-- A statement of a settings file. -/
inductive Statement where
  /-- Opens a table. -/
  | table (path : List String) (key : String)
  /-- Opens a table at the end of an array. -/
  | item (path : List String) (key : String)
  /-- Puts a value. -/
  | pair (path : List String) (key : String) (value : Value)

/-- Reads a statement. Every step of a value takes a character, or is one of two between steps that
do. -/
def readStatement (cs : List Char) : Option (Statement × List Char) :=
  match cs with
  | '[' :: '[' :: rest => do
    let ((path, key), rest) ← readPath rest.length rest
    match rest with
    | ']' :: ']' :: rest => return (.item path key, rest)
    | _ => none
  | '[' :: rest => do
    let ((path, key), rest) ← readPath rest.length rest
    match rest with
    | ']' :: rest => return (.table path key, rest)
    | _ => none
  | _ => do
    let ((path, key), rest) ← readPath cs.length cs
    match rest with
    | '=' :: rest =>
      let (v, rest) ← readValue (2 * rest.length + 1) (skipBlanks rest)
      return (.pair path key v, rest)
    | _ => none

/-- Reads statements up to the end. The number bounds them. -/
def readStatements : Nat → List Char → Option (List Statement)
  | 0, _ => none
  | count + 1, cs => do
    match ← skipGaps false cs with
    | [] => return []
    | cs =>
      let (statement, rest) ← readStatement cs
      if endsLine rest then return statement :: (← readStatements count rest) else none

end NoteTools.Toml
