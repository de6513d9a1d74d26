import NoteTools.Toml.Reader

/-!
# Whole settings files

The statements of a file are carried out one after the other, starting from an empty table. A mark
of the byte order at the start of the file is passed over.

Main definitions:

* `Document`, `Document.add`: what has been read so far, and the effect of a statement;
* `parse`: the entries of a file.
-/

namespace NoteTools.Toml

/-- What has been read so far: all entries, and the path of the table opened last. -/
structure Document where
  /-- The entries of the whole file. -/
  entries : Entries
  /-- The path of the table opened last. -/
  current : List String

/-- Carries out a statement. -/
def Document.add (d : Document) : Statement → Option Document
  | .table path key =>
    (openTable path key d.entries).map fun entries => ⟨entries, path ++ [key]⟩
  | .item path key =>
    (openItem path key d.entries).map fun entries => ⟨entries, path ++ [key]⟩
  | .pair path key value =>
    (atPath false (putPair path key value) d.current .header d.entries).map fun entries =>
      { d with entries }

/-- The text without a mark of the byte order. -/
def dropMark : List Char → List Char
  | '\uFEFF' :: cs => cs
  | cs => cs

/-- The entries of a file, if it is one. -/
def parse (s : String) : Option Entries := do
  let cs := dropMark s.toList
  let statements ← readStatements (cs.length + 1) cs
  let d ← statements.foldlM Document.add ⟨[], []⟩
  return d.entries

/-- A file as decoders see it. -/
def scan (s : String) : Option Json.Scan :=
  (parse s).map fun entries => .object (scanEntries entries)

end NoteTools.Toml
