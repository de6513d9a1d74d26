import NoteTools.Text.Blank

/-!
# Note ids

The id of a note becomes part of a path, so it is made of ASCII letters, digits, `_` and `-` only.
Blanks around an id are removed.

Main definitions:

* `isIdChar`, `NoteId.Valid`;
* `NoteId`, `NoteId.read?`: the id that a text spells.
-/

namespace NoteTools

/-- The characters of ids. -/
def isIdChar (c : Char) : Bool :=
  c.isAlphanum || c == '_' || c == '-'

/-- A text that is an id as it stands. -/
def NoteId.Valid (s : String) : Prop :=
  s ≠ "" ∧ s.toList.all isIdChar = true

instance (s : String) : Decidable (NoteId.Valid s) :=
  inferInstanceAs (Decidable (s ≠ "" ∧ s.toList.all isIdChar = true))

/-- The id of a note. -/
structure NoteId where
  /-- The id as text. -/
  text : String
  /-- The text is an id. -/
  valid : NoteId.Valid text
  deriving DecidableEq

/-- The id that a text spells, without the blanks around it. -/
def NoteId.read? (s : String) : Option NoteId :=
  if h : NoteId.Valid (Text.trim s) then some ⟨Text.trim s, h⟩ else none

/-- The id of the note at the root of the tree. -/
def NoteId.root : NoteId :=
  ⟨"root", by decide⟩

end NoteTools
