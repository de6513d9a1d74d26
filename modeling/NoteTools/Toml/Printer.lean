import NoteTools.Json.Printer
import NoteTools.Toml.Reader

/-!
# Writing a settings file

A file is written statement by statement, each on a line of its own. Texts stand between double
quotes on one line; in them the quote, the backslash and the control characters are escaped. A key
is bare where it can be. Numbers with a point, and moments, have no written form here.

Main definitions:

* `quoted`, `valueChars`: a text and a value;
* `statementChars`: a statement;
* `fileText`: the text of a list of sections, each with its pairs.
-/

namespace NoteTools.Toml

/-! ## Texts and keys -/

/-- The escaped form of a character. -/
def escapeChar (c : Char) : List Char :=
  if c = '"' ∨ c = '\\' then ['\\', c]
  else if isControl c then
    ['\\', 'u', '0', '0', Json.hexDigit (c.toNat / 16), Json.hexDigit (c.toNat % 16)]
  else [c]

/-- A text between quotes. -/
def quoted (s : String) : List Char :=
  '"' :: s.toList.flatMap escapeChar ++ ['"']

/-- One part of a key. -/
def keyChars (key : String) : List Char :=
  if key.toList ≠ [] ∧ key.toList.all isKeyChar = true then key.toList else quoted key

/-- A dotted key. -/
def pathChars (path : List String) (key : String) : List Char :=
  path.flatMap (fun part => keyChars part ++ ['.']) ++ keyChars key

/-! ## Values -/

mutual

/-- The characters of a value. -/
def valueChars : Value → List Char
  | .text s => quoted s
  | .int i => (toString i).toList
  | .bool true => ['t', 'r', 'u', 'e']
  | .bool false => ['f', 'a', 'l', 's', 'e']
  | .array _ items => '[' :: itemsChars items
  | .table _ entries => '{' :: entriesChars entries
  | .float _ => []
  | .moment => []

/-- The items of an array and the closing bracket. -/
def itemsChars : List Value → List Char
  | [] => [']']
  | v :: vs => valueChars v ++ ((if vs.isEmpty then [] else [',', ' ']) ++ itemsChars vs)

/-- The pairs of a table between braces, and the closing brace. -/
def entriesChars : List (String × Value) → List Char
  | [] => ['}']
  | (key, v) :: entries =>
    keyChars key ++ ' ' :: '=' :: ' ' ::
      (valueChars v ++ ((if entries.isEmpty then [] else [',', ' ']) ++ entriesChars entries))

end

/-! ## Statements -/

/-- A statement without its line end. -/
def statementChars : Statement → List Char
  | .table path key => '[' :: pathChars path key ++ [']']
  | .item path key => '[' :: '[' :: pathChars path key ++ [']', ']']
  | .pair path key v => pathChars path key ++ ' ' :: '=' :: ' ' :: valueChars v

/-- Statements, each on a line of its own. -/
def linesChars (statements : List Statement) : List Char :=
  statements.flatMap fun statement => statementChars statement ++ ['\n']

/-- The statements of a section: its header and its pairs. -/
def sectionStatements (name : String) (entries : Entries) : List Statement :=
  .table [] name :: entries.map fun (key, v) => .pair [] key v

/-- The text of a file of sections. -/
def fileText (sections : List (String × Entries)) : String :=
  String.ofList (linesChars (sections.flatMap
    fun (name, entries) => sectionStatements name entries))

end NoteTools.Toml
