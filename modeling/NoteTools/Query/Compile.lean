import NoteTools.Query.Clause
import NoteTools.Query.Fragment

/-!
# Compiling a query

The compiled query is one line: the free texts, or a condition that always holds when there are
none; then the clauses; then the condition of the scope; then the limit. It is empty when there is
neither free text nor condition, whatever the limit.

Criteria are read in order up to the first invalid date. The criteria that are dropped on the way
are reported with their index.

Main definitions:

* `assemble`: the line of the parts;
* `readCriteria`: the fragments up to the first invalid date;
* `Query.compile`: the compilation of a query.
-/

namespace NoteTools

/-- A condition that holds for every note. -/
def baseCondition : String :=
  "note.noteId != ''"

/-- The line of the parts of a query. -/
def assemble (freeText : Option String) (clauses : List String) (scope : Option String)
    (limit : Option Limit) : String :=
  let lead? := freeText.filter fun t => !Text.blank t
  let conditions := (clauses ++ scope.toList).filter (· ≠ "")
  if lead?.isNone ∧ conditions = [] then ""
  else
    let body := " ".intercalate (lead?.getD baseCondition :: conditions)
    match limit with
    | some n => body ++ " limit " ++ toString n.value.toNat
    | none => body

/-- A criterion that was dropped. -/
structure Drop where
  /-- Its place in the list of criteria, from zero. -/
  index : Nat
  /-- The criterion. -/
  criterion : Criterion
  /-- Why it was dropped. -/
  reason : DropReason
  deriving DecidableEq, Repr

/-- A criterion and what it becomes. -/
abbrev ReadCriterion := Criterion × Fragment

/-- The criteria read up to the first invalid date, and the error of that date. -/
def readCriteria : List Criterion → List ReadCriterion × Option DateError
  | [] => ([], none)
  | c :: cs =>
    match c.fragment with
    | .error e => ([], some e)
    | .ok fragment => let (read, e) := readCriteria cs; ((c, fragment) :: read, e)

/-- The criteria that were dropped, the first one having the given index. -/
def dropsFrom (index : Nat) : List ReadCriterion → List Drop
  | [] => []
  | (c, .dropped reason) :: read => ⟨index, c, reason⟩ :: dropsFrom (index + 1) read
  | _ :: read => dropsFrom (index + 1) read

/-- The free texts, in order. -/
def freeTexts (read : List ReadCriterion) : List String :=
  read.filterMap fun
    | (_, .freeText text) => some text
    | _ => none

/-- The conditions with their connectors, in order. A dropped criterion has an empty one. -/
def linkedConditions (read : List ReadCriterion) : List Linked :=
  read.filterMap fun
    | (c, .condition text) => some ⟨text, c.connector⟩
    | (c, .dropped _) => some ⟨"", c.connector⟩
    | (_, .freeText _) => none

/-- What compiling gives: the drops, and the line or the error of the first invalid date. -/
structure Compilation where
  /-- The criteria that were dropped before the end or the first invalid date. -/
  drops : List Drop
  /-- The compiled query. -/
  result : Except DateError String

/-- The line of a query whose criteria have been read. -/
def Query.line (q : Query) (read : List ReadCriterion) : String :=
  let texts := (q.text.toList ++ freeTexts read).filter fun t => !Text.blank t
  assemble (some (" ".intercalate texts)) (clauseTexts (linkedConditions read))
    (q.scope.bind Scope.condition?) q.limit

/-- The compilation of a query. -/
def Query.compile (q : Query) : Compilation :=
  let (read, error?) := readCriteria q.criteria
  { drops := dropsFrom 0 read
    result := match error? with
      | some e => .error e
      | none => .ok (q.line read) }

end NoteTools
