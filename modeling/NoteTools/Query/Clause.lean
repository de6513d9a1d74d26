import NoteTools.Query.Criterion

/-!
# Clauses

The conditions of a query are gathered into clauses: a clause takes conditions as long as the
connectors behind them agree. Conditions of an `and` clause stand side by side; those of an `or`
clause stand in parentheses, behind the `~` that the grammar wants in front of a parenthesis.

Main definitions:

* `Linked`: a condition and the connector behind it;
* `Clause`: conditions under one connector, and its text;
* `clauses`: the clauses of a list of conditions.
-/

namespace NoteTools

/-- A condition and its connector to the next one. An empty condition stands for a dropped one. -/
structure Linked where
  /-- The condition. -/
  condition : String
  /-- The connector to the next condition. -/
  connector : Option Connector
  deriving DecidableEq, Repr

/-- Conditions under one connector: the first one, and those behind it in order. -/
structure Clause where
  /-- The first condition. -/
  head : String
  /-- The conditions behind it. -/
  tail : List String
  /-- The connector between them. -/
  connector : Connector
  deriving DecidableEq, Repr

namespace Clause

/-- The clause that starts with a condition: its connector counts, or `and` when it has none. -/
def start (c : Linked) : Clause :=
  ⟨c.condition, [], c.connector.getD .and⟩

/-- A clause takes a condition whose connector is its own or absent. -/
def Accepts (c : Clause) (connector : Option Connector) : Prop :=
  ∀ k ∈ connector, k = c.connector

instance (c : Clause) (connector : Option Connector) : Decidable (c.Accepts connector) := by
  unfold Accepts; infer_instance

/-- A clause with one more condition at its end. -/
def push (c : Clause) (condition : String) : Clause :=
  { c with tail := c.tail ++ [condition] }

/-- The conditions of a clause. -/
def conditions (c : Clause) : List String :=
  c.head :: c.tail

/-- The text of a clause. -/
def text (c : Clause) : String :=
  match c.tail, c.connector with
  | [], _ => c.head
  | _, .and => " ".intercalate c.conditions
  | _, .or => "~(" ++ " OR ".intercalate c.conditions ++ ")"

/-- Gathers conditions into an open clause and the clauses behind it. -/
def gather (current : Clause) : List Linked → List Clause
  | [] => [current]
  | c :: cs =>
    if current.Accepts c.connector then gather (current.push c.condition) cs
    else current :: gather (start c) cs

end Clause

/-- Conditions with the connector of the last one removed: nothing follows it. -/
def unlinkLast : List Linked → List Linked
  | [] => []
  | [c] => [{ c with connector := none }]
  | c :: cs => c :: unlinkLast cs

/-- The clauses of a list of conditions, empty ones left out. -/
def clauses (cs : List Linked) : List Clause :=
  match unlinkLast (cs.filter fun c => c.condition ≠ "") with
  | [] => []
  | c :: cs => Clause.gather (Clause.start c) cs

/-- The texts of the clauses of a list of conditions. -/
def clauseTexts (cs : List Linked) : List String :=
  (clauses cs).map Clause.text

end NoteTools
