import NoteTools.Query.Codec
import NoteTools.Query.Trace
import NoteTools.Service.Basic

/-!
# Searching for notes

A search compiles its criteria to a line and sends it to the server with two flags. The fast mode,
which leaves contents out, is asked for when there is no free text and no criterion on a content
property; archived notes are asked for on request, and when a criterion is on `isArchived`.

Main definitions:

* `SearchRequest`, `SearchResponse`;
* `Service.search`.
-/

namespace NoteTools

open Json

/-- A request to search. -/
structure SearchRequest where
  /-- Free text. -/
  text : Option String := none
  /-- The criteria, in order. -/
  criteria : List Criterion := []
  /-- The scope in the tree. -/
  scope : Option Scope := none
  /-- The largest number of results. -/
  limit : Option UInt32 := none
  /-- Archived notes are to be found even when no criterion asks for them. -/
  includeArchived : Bool := false
  deriving DecidableEq

/-- The answer to a search. -/
structure SearchResponse where
  /-- The line that was searched for. -/
  query : String
  /-- Contents were left out. -/
  fastSearch : Bool
  /-- Archived notes were looked at. -/
  includeArchivedNotes : Bool
  /-- The notes found. -/
  results : List Note
  /-- The criteria that were dropped, a line for each. -/
  warnings : List String
  deriving DecidableEq, Repr

/-! ## JSON -/

/-- Decodes a request to search. -/
def SearchRequest.decode : Decoder SearchRequest := fun s => do
  let text := Field.withDefault "text" (Decoder.optional Decoder.text) none
  let criteria := Field.withDefault "criteria" (Decoder.list Criterion.decode) []
  let scope := Field.withDefault "hierarchy" (Decoder.optional Scope.decode) none
  let limit := Field.withDefault "limit" (Decoder.optional Decoder.nat32) none
  let includeArchived := Field.withDefault "includeArchived" Decoder.bool false
  let r ← openRecord "SearchRequest"
    [text.slot, criteria.slot, scope.slot, limit.slot, includeArchived.slot] s
  return {
    text := ← r.get text
    criteria := ← r.get criteria
    scope := ← r.get scope
    limit := ← r.get limit
    includeArchived := ← r.get includeArchived }

/-- The object of a request to search. -/
def SearchRequest.toJson (r : SearchRequest) : Json :=
  .obj [("text", ofText? r.text), ("criteria", .arr (r.criteria.map Criterion.toJson)),
    ("hierarchy", (r.scope.map Scope.toJson).getD .null),
    ("limit", (r.limit.map fun n => nat n.toNat).getD .null),
    ("includeArchived", .bool r.includeArchived)]

/-- The object of an answer to a search. -/
def SearchResponse.toJson (r : SearchResponse) : Json :=
  .obj [("query", .str r.query), ("fastSearch", .bool r.fastSearch),
    ("includeArchivedNotes", .bool r.includeArchivedNotes),
    ("results", .arr (r.results.map Note.toJson)), ("warnings", .strs r.warnings)]

/-! ## Flags -/

/-- The properties whose matching needs the content of notes. -/
def contentKeys : List String :=
  ["content", "text", "rawContent"]

/-- The keys of the note properties of a query, those of dropped criteria too. -/
def Query.propertyKeys (q : Query) : List String :=
  q.criteria.filterMap Criterion.propertyKey?

/-- Contents can be left out. -/
def Query.isFast (q : Query) : Bool :=
  !q.hasFreeText && !q.propertyKeys.any (· ∈ contentKeys)

/-- A criterion is on the property that marks archived notes. -/
def Query.mentionsArchived (q : Query) : Bool :=
  q.propertyKeys.any (· == "isArchived")

/-! ## Searching -/

/-- The warning about a dropped criterion. -/
def Drop.warning (d : Drop) : String :=
  "criteria[" ++ toString d.index ++ "] (" ++ d.criterion.property ++ ") was ignored: "
    ++ d.reason.message ++ "."

/-- The limit of a request, which must not be zero or above the largest one. -/
def checkLimit (largest : UInt32) : Option UInt32 → Except ServiceError (Option Limit)
  | none => .ok none
  | some n =>
    match Limit.of? n with
    | some limit =>
      if n ≤ largest then .ok (some limit)
      else .error (.invalidRequest (.limitOutOfRange largest n))
    | none => .error (.invalidRequest (.limitOutOfRange largest n))

/-- Reports the events of a list. -/
def reportAll {ε : Type} : List Event → Action ε Unit
  | [] => return ()
  | e :: es => do Action.report e; reportAll es

namespace Service

/-- The search of a request, and the warnings about it. -/
def compileSearch (s : Service) (r : SearchRequest) :
    ServiceAction (SearchParams × List String) := do
  let limit ← Action.ofExcept (checkLimit s.maxLimit r.limit)
  let q : Query := { text := r.text, criteria := r.criteria, scope := r.scope, limit }
  let c := q.compile
  if s.traceQueries then reportAll c.events
  let line ← Action.ofExcept (c.result.mapError .date)
  if line = "" then throw (.invalidRequest .nothingToSearch)
  return ({
    search := line
    fastSearch := q.isFast
    includeArchivedNotes := r.includeArchived || q.mentionsArchived }, c.drops.map Drop.warning)

/-- Finds notes. -/
def search (s : Service) (r : SearchRequest) : ServiceAction SearchResponse := do
  let (params, warnings) ← s.compileSearch r
  let results ← ServiceAction.call (s.client.searchNotes params)
  Action.report {
    level := .info, message := "Searched notes."
    fields := [("results", .nat results.length), ("fast_search", .bool params.fastSearch),
      ("dropped", .nat warnings.length)] }
  return {
    query := params.search, fastSearch := params.fastSearch
    includeArchivedNotes := params.includeArchivedNotes, results, warnings }

end Service

end NoteTools
