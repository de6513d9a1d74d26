import NoteTools.Json.Decode
import NoteTools.Query.Criterion

/-!
# Criteria as JSON

Criteria and scopes are given by callers as JSON objects, some of whose keys have a second spelling,
or as arrays of their fields. They are written back with the main spelling; a criterion leaves out
the fields that have no value.

Main definitions:

* `Criterion.decode`, `Criterion.toJson`;
* `Scope.decode`, `Scope.toJson`.
-/

namespace NoteTools

open Json

/-! ## Connectors -/

/-- The spellings of the connectors. -/
def Connector.table : List (String × Connector) :=
  [("AND", .and), ("and", .and), ("OR", .or), ("or", .or)]

/-- Decodes a connector. -/
def Connector.decode : Decoder Connector :=
  Decoder.variant table

/-- The main spelling of a connector. -/
def Connector.name : Connector → String
  | .and => "AND"
  | .or => "OR"

/-! ## Criteria -/

/-- The spellings of the kinds. -/
def Criterion.Kind.table : List (String × Criterion.Kind) :=
  [("label", .label), ("relation", .relation), ("noteProperty", .noteProperty),
   ("note_property", .noteProperty), ("fulltext", .freeText)]

/-- The main spelling of a kind. -/
def Criterion.Kind.name : Criterion.Kind → String
  | .label => "label"
  | .relation => "relation"
  | .noteProperty => "noteProperty"
  | .freeText => "fulltext"

namespace Criterion

/-- Decodes a criterion. -/
def decode : Decoder Criterion := fun s => do
  let property := Field.required "property" Decoder.text
  let kind := (Field.required "type" (Decoder.variant Kind.table)).orNamed "variant"
  let op := (Field.withDefault "op" (Decoder.optional Decoder.text) none).orNamed "operator"
  let value := Field.withDefault "value" (Decoder.optional Decoder.text) none
  let connector := Field.withDefault "logic" (Decoder.optional Connector.decode) none
  let r ← openRecord "SearchCriteria"
    [property.slot, kind.slot, op.slot, value.slot, connector.slot] s
  return {
    property := ← r.get property
    kind := ← r.get kind
    op := ← r.get op
    value := ← r.get value
    connector := ← r.get connector }

/-- The object of a criterion. -/
def toJson (c : Criterion) : Json :=
  .obj ([("property", .str c.property), ("type", .str c.kind.name)] ++ textMember? "op" c.op
    ++ textMember? "value" c.value ++ textMember? "logic" (c.connector.map Connector.name))

end Criterion

/-! ## Scopes -/

/-- The spellings of the kinds. -/
def Scope.Kind.table : List (String × Scope.Kind) :=
  [("children", .children), ("descendants", .descendants)]

/-- The spelling of a kind. -/
def Scope.Kind.name : Scope.Kind → String
  | .children => "children"
  | .descendants => "descendants"

namespace Scope

/-- Decodes a scope. -/
def decode : Decoder Scope := fun s => do
  let kind := Field.required "kind" (Decoder.variant Kind.table)
  let reference := (Field.required "referenceNoteId" Decoder.text).orNamed "noteId"
  let r ← openRecord "HierarchySpec" [kind.slot, reference.slot] s
  return { kind := ← r.get kind, reference := ← r.get reference }

/-- The object of a scope. -/
def toJson (s : Scope) : Json :=
  .obj [("kind", .str s.kind.name), ("referenceNoteId", .str s.reference)]

end Scope

end NoteTools
