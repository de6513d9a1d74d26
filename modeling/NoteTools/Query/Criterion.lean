import NoteTools.Text.Blank

/-!
# Search criteria

A search is described by a text, a list of criteria, a scope in the note tree and a limit. Each
criterion is a condition on a label, a relation or a property of a note, or a piece of free text; a
connector links it to the criterion behind it.

Main definitions:

* `Criterion`, `Scope`, `Limit`, `Query`;
* `Criterion.propertyKey?`, `Criterion.freeText?`: what a criterion says of a note property, or of
  the free text;
* `Query.hasFreeText`: the compiled query will lead with free text.
-/

namespace NoteTools

/-- The connector between a criterion and the one behind it. -/
inductive Connector where
  | and
  | or
  deriving DecidableEq, Repr

/-- What a criterion is about. -/
inductive Criterion.Kind where
  | label
  | relation
  | noteProperty
  | freeText
  deriving DecidableEq, Repr

/-- One condition of a search. -/
structure Criterion where
  /-- The name of the label, relation or property, or free text. -/
  property : String
  /-- What the criterion is about. -/
  kind : Criterion.Kind
  /-- The operator, as it was given. -/
  op : Option String := none
  /-- The value to compare with. -/
  value : Option String := none
  /-- The connector to the next criterion. -/
  connector : Option Connector := none
  deriving DecidableEq, Repr

namespace Criterion

/-- The value, unless it is absent or blank. -/
def givenValue? (c : Criterion) : Option String :=
  c.value.filter fun v => !Text.blank v

/-- The key of a note property: trimmed, and without `note.` in front. -/
def keyOf (property : String) : String :=
  let key := Text.trim property
  match key.toList with
  | 'n' :: 'o' :: 't' :: 'e' :: '.' :: rest => String.ofList rest
  | _ => key

/-- The key of a criterion on a note property. -/
def propertyKey? (c : Criterion) : Option String :=
  match c.kind with
  | .noteProperty => some (keyOf c.property)
  | _ => none

/-- The free text of a criterion: its value, or its property when no value is given. There is none
when that is blank. -/
def freeText? (c : Criterion) : Option String :=
  match c.kind with
  | .freeText => (c.givenValue?.or (some c.property)).filter fun t => !Text.blank t
  | _ => none

end Criterion

/-- The part of the tree below a note. -/
inductive Scope.Kind where
  | children
  | descendants
  deriving DecidableEq, Repr

/-- A restriction to the notes below a note. -/
structure Scope where
  /-- How far below. -/
  kind : Scope.Kind
  /-- The id of the note, as it was given. -/
  reference : String
  deriving DecidableEq, Repr

/-- The largest number of notes to find: a positive number of 32 bits. -/
structure Limit where
  /-- The number. -/
  value : UInt32
  /-- A limit is positive. -/
  ne_zero : value ≠ 0
  deriving DecidableEq

/-- The limit of a number, if it can be one. -/
def Limit.of? (n : UInt32) : Option Limit :=
  if h : n ≠ 0 then some ⟨n, h⟩ else none

/-- What to search for. -/
structure Query where
  /-- Free text. -/
  text : Option String := none
  /-- The criteria, in order. -/
  criteria : List Criterion := []
  /-- The scope in the tree. -/
  scope : Option Scope := none
  /-- The largest number of results. -/
  limit : Option Limit := none
  deriving DecidableEq

/-- Some free text is given that is not blank. -/
def Query.hasFreeText (q : Query) : Bool :=
  q.text.any (fun t => !Text.blank t) || q.criteria.any fun c => c.freeText?.isSome

end NoteTools
