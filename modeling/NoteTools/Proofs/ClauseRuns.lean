import Mathlib.Data.List.SplitBy
import NoteTools.Query.Clause

/-!
# Clauses are runs of equal connectors

`clauses` gathers conditions step by step and looks at the connector behind each of them. The same
clauses come out when every condition is first given the connector that holds it to its neighbours,
and the list is then cut where that connector changes.

Specification: empty conditions are left out. The first condition has its own connector, or `and`.
Every other one has its own connector, or that of the condition in front of it when it has none;
the last one always has that of the condition in front of it.

Results:

* `clauses_pairs`: of two or more conditions, the clauses are the runs, connectors included;
* `clauseTexts_eq_runs`: the texts of the clauses are those of the runs, for every list; every
  condition stands in one clause, in order; no clause is empty, and neighbours differ in their
  connector.
-/

namespace NoteTools

/-! ## Specification -/

section
variable {α : Type}

/-- The connectors of the items behind one whose connector is `previous`. -/
def carryFrom (previous : Connector) : List (α × Option Connector) → List (α × Connector)
  | [] => []
  | [(a, _)] => [(a, previous)]
  | (a, own) :: next :: items =>
    (a, own.getD previous) :: carryFrom (own.getD previous) (next :: items)

/-- The items with the connectors that hold them to their neighbours. -/
def carry : List (α × Option Connector) → List (α × Connector)
  | [] => []
  | (a, own) :: items => (a, own.getD .and) :: carryFrom (own.getD .and) items

/-- Two items are held by the same connector. -/
def sameConnector (a b : α × Connector) : Bool := a.2 == b.2

/-- The maximal runs of items held by the same connector. -/
def runs (items : List (α × Option Connector)) : List (List (α × Connector)) :=
  (carry items).splitBy sameConnector

end

/-- The text of a run: a single condition stands alone, several stand side by side or, under `or`,
in parentheses. -/
def runText : List (String × Connector) → String
  | [] => ""
  | [(condition, _)] => condition
  | run@((_, .and) :: _ :: _) => " ".intercalate (run.map Prod.fst)
  | run@((_, .or) :: _ :: _) => "~(" ++ " OR ".intercalate (run.map Prod.fst) ++ ")"

/-- A condition with its connector to the next one. -/
def Linked.pair (c : Linked) : String × Option Connector := (c.condition, c.connector)

/-- The conditions that are not empty. -/
def live (items : List Linked) : List Linked :=
  items.filter fun c => c.condition ≠ ""

/-- The conditions of a clause, each with the connector of the clause. -/
def Clause.pairs (c : Clause) : List (String × Connector) :=
  c.conditions.map fun condition => (condition, c.connector)

/-! ## Clauses as runs -/

namespace Clause

theorem pairs_start (c : Linked) : (start c).pairs = [(c.condition, c.connector.getD .and)] := rfl

theorem pairs_push (c : Clause) (condition : String) :
    (c.push condition).pairs = c.pairs ++ [(condition, c.connector)] := by
  simp [pairs, conditions, push]

theorem connector_push (c : Clause) (condition : String) :
    (c.push condition).connector = c.connector := rfl

theorem pairs_ne_nil (c : Clause) : c.pairs ≠ [] := by
  simp [pairs, conditions]

theorem map_fst_pairs (c : Clause) : c.pairs.map Prod.fst = c.conditions := by
  simp [pairs, Function.comp_def]

theorem snd_of_mem_pairs {c : Clause} {a : String × Connector} (h : a ∈ c.pairs) :
    a.2 = c.connector := by
  obtain ⟨condition, -, rfl⟩ := List.mem_map.mp h
  rfl

/-- The conditions of one clause are one run. -/
theorem splitBy_pairs (c : Clause) : c.pairs.splitBy sameConnector = [c.pairs] := by
  apply List.splitBy_of_isChain c.pairs_ne_nil
  apply List.Pairwise.isChain
  apply List.pairwise_of_forall_mem_list
  intro a ha b hb
  simp [sameConnector, snd_of_mem_pairs ha, snd_of_mem_pairs hb]

/-- A clause in front of an item with another connector is a run of its own. -/
theorem splitBy_pairs_append_cons (c : Clause) (a : String × Connector)
    (items : List (String × Connector)) (h : a.2 ≠ c.connector) :
    (c.pairs ++ a :: items).splitBy sameConnector =
      c.pairs :: (a :: items).splitBy sameConnector := by
  rw [List.splitBy_append_cons, splitBy_pairs, List.singleton_append]
  intro b hb
  have hb' : b.2 = c.connector := snd_of_mem_pairs (List.mem_of_mem_getLast? hb)
  simp [sameConnector, hb', Ne.symm h]

/-- A clause that does not accept a connector is not held by it. -/
theorem of_not_accepts {c : Clause} {own : Option Connector} (h : ¬ c.Accepts own) :
    ∃ k, own = some k ∧ k ≠ c.connector := by
  simpa [Accepts] using h

theorem getD_of_accepts {c : Clause} {own : Option Connector} (h : c.Accepts own) :
    own.getD c.connector = c.connector := by
  cases own with
  | none => rfl
  | some k => exact h k rfl

/-- **What an open clause gathers.** The open clause and the items behind it, the last of which has
lost its connector, give the runs of the clause's conditions and the items with carried
connectors. -/
theorem gather_pairs (items : List Linked) (current : Clause) :
    (gather current (unlinkLast items)).map pairs =
      (current.pairs ++ carryFrom current.connector (items.map Linked.pair)).splitBy
        sameConnector := by
  induction items using unlinkLast.induct generalizing current with
  | case1 => simp [unlinkLast, gather, carryFrom, splitBy_pairs]
  | case2 c =>
    have hc : current.Accepts none := by simp [Accepts]
    have hp : carryFrom current.connector ([c].map Linked.pair) =
        [(c.condition, current.connector)] := rfl
    rw [hp, ← pairs_push, splitBy_pairs]
    simp [unlinkLast, gather, hc]
  | case3 c items hne ih =>
    obtain ⟨next, rest, rfl⟩ := List.exists_cons_of_ne_nil hne
    have hu : unlinkLast (c :: next :: rest) = c :: unlinkLast (next :: rest) := rfl
    have hp : carryFrom current.connector ((c :: next :: rest).map Linked.pair) =
        (c.condition, c.connector.getD current.connector) ::
          carryFrom (c.connector.getD current.connector) ((next :: rest).map Linked.pair) := rfl
    rw [hu, hp, gather]
    by_cases h : current.Accepts c.connector
    · -- The clause takes the condition, which carries the clause's connector.
      rw [if_pos h, ih, getD_of_accepts h, pairs_push, connector_push, List.append_assoc,
        List.singleton_append]
    · -- The connector changes: the clause ends, and another one starts with the condition.
      obtain ⟨k, hk, hne'⟩ := of_not_accepts h
      rw [if_neg h, List.map_cons, ih, pairs_start]
      simp only [start, hk, Option.getD_some]
      rw [splitBy_pairs_append_cons current _ _ hne', List.singleton_append]

/-- The clauses that come of an open one start with its connector, and neighbours differ. -/
theorem gather_isChain (items : List Linked) (current : Clause) :
    (∀ first ∈ (gather current items).head?, first.connector = current.connector) ∧
      (gather current items).IsChain fun a b => a.connector ≠ b.connector := by
  induction items generalizing current with
  | nil => simp [gather]
  | cons c items ih =>
    rw [gather]
    by_cases h : current.Accepts c.connector
    · rw [if_pos h]
      exact ih (current.push c.condition)
    · rw [if_neg h]
      obtain ⟨k, hk, hne⟩ := of_not_accepts h
      obtain ⟨hhead, hchain⟩ := ih (start c)
      refine ⟨by simp, List.isChain_cons.mpr ⟨fun next hnext => ?_, hchain⟩⟩
      rw [hhead next hnext]
      simpa [start, hk] using hne.symm

/-- The text of a clause is that of the run of its conditions. -/
theorem text_eq_runText (c : Clause) : c.text = runText c.pairs := by
  obtain ⟨head, tail, connector⟩ := c
  cases tail with
  | nil => rfl
  | cons second tail =>
    have hfst := map_fst_pairs ⟨head, second :: tail, connector⟩
    cases connector <;> simp only [text, ← hfst] <;> rfl

end Clause

/-! ## The clauses of a list of conditions -/

section
variable {α : Type}

theorem carryFrom_map_fst (items : List (α × Option Connector)) (previous : Connector) :
    (carryFrom previous items).map Prod.fst = items.map Prod.fst := by
  fun_induction carryFrom previous items with
  | case1 => rfl
  | case2 => rfl
  | case3 previous a own next items ih => rw [List.map_cons, ih]; rfl

/-- Runs lose no item and keep the order. -/
theorem flatten_runs_map_fst (items : List (α × Option Connector)) :
    (runs items).flatten.map Prod.fst = items.map Prod.fst := by
  rw [runs, List.flatten_splitBy]
  cases items with
  | nil => rfl
  | cons item items => rw [carry, List.map_cons, carryFrom_map_fst]; rfl

end

theorem clauses_eq (items : List Linked) :
    clauses items = match unlinkLast (live items) with
      | [] => []
      | c :: cs => Clause.gather (Clause.start c) cs := rfl

theorem clauses_of_live_singleton {items : List Linked} {c : Linked} (h : live items = [c]) :
    clauses items = [⟨c.condition, [], .and⟩] := by
  rw [clauses_eq, h]; rfl

/-- **The clauses are the runs.** Of two or more conditions, the clauses hold the runs of equal
carried connectors, each under its connector. -/
theorem clauses_pairs {items : List Linked} (h : (live items).length ≠ 1) :
    (clauses items).map Clause.pairs = runs ((live items).map Linked.pair) := by
  rw [clauses_eq]
  match hl : live items with
  | [] => rfl
  | [c] => rw [hl] at h; exact absurd rfl h
  | c :: next :: rest => exact Clause.gather_pairs (next :: rest) (Clause.start c)

/-- A list with one condition, or with another number of them. -/
theorem live_singleton_or (items : List Linked) :
    (∃ c, live items = [c]) ∨ (live items).length ≠ 1 := by
  by_cases h : (live items).length = 1
  · exact .inl (List.length_eq_one_iff.mp h)
  · exact .inr h

theorem clauseTexts_eq_map_runText (items : List Linked) :
    clauseTexts items = (runs ((live items).map Linked.pair)).map runText := by
  obtain ⟨c, hc⟩ | h := live_singleton_or items
  · rw [clauseTexts, clauses_of_live_singleton hc, hc]; rfl
  · rw [← clauses_pairs h, List.map_map, clauseTexts]
    exact List.map_congr_left fun c _ => c.text_eq_runText

/-- Every condition stands in one clause, in order. -/
theorem clauses_flatMap_conditions (items : List Linked) :
    (clauses items).flatMap Clause.conditions = (live items).map Linked.condition := by
  obtain ⟨c, hc⟩ | h := live_singleton_or items
  · rw [clauses_of_live_singleton hc, hc]; rfl
  · have hmap : (clauses items).flatMap Clause.conditions =
        ((clauses items).map Clause.pairs).flatten.map Prod.fst := by
      simp [List.flatMap, List.map_flatten, Function.comp_def, Clause.map_fst_pairs]
    rw [hmap, clauses_pairs h, flatten_runs_map_fst, List.map_map]
    rfl

theorem clauses_isChain (items : List Linked) :
    (clauses items).IsChain fun a b => a.connector ≠ b.connector := by
  rw [clauses_eq]
  split
  · exact List.isChain_nil
  · exact (Clause.gather_isChain _ _).2

theorem Clause.text_ne_empty {c : Clause} (h : c.head ≠ "") : c.text ≠ "" := by
  obtain ⟨head, tail, connector⟩ := c
  cases tail with
  | nil => exact h
  | cons second tail =>
    cases connector with
    | and => simp [text, conditions]
    | or => simp [text]

/-- No clause has an empty text. -/
theorem empty_notMem_clauseTexts (items : List Linked) : "" ∉ clauseTexts items := by
  intro hmem
  obtain ⟨c, hc, htext⟩ := List.mem_map.mp hmem
  have hhead : c.head ∈ (live items).map Linked.condition := by
    rw [← clauses_flatMap_conditions]
    exact List.mem_flatMap.mpr ⟨c, hc, by simp [Clause.conditions]⟩
  obtain ⟨item, hitem, hcond⟩ := List.mem_map.mp hhead
  have hne : item.condition ≠ "" := by simpa using (List.mem_filter.mp hitem).2
  exact Clause.text_ne_empty (hcond ▸ hne) htext

/-- **Clauses are runs of equal connectors.** The texts of the clauses are those of the maximal
runs of equal carried connectors. Every condition that is not empty stands in one clause, in order;
no clause is empty, and neighbours differ in their connector. -/
theorem clauseTexts_eq_runs (items : List Linked) :
    clauseTexts items = (runs ((live items).map Linked.pair)).map runText ∧
      (clauses items).flatMap Clause.conditions = (live items).map Linked.condition ∧
      "" ∉ clauseTexts items ∧
      (clauses items).IsChain fun a b => a.connector ≠ b.connector :=
  ⟨clauseTexts_eq_map_runText items, clauses_flatMap_conditions items,
    empty_notMem_clauseTexts items, clauses_isChain items⟩

end NoteTools
