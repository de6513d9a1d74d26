import NoteTools.Proofs.Compilation
import NoteTools.Proofs.QueryText

/-!
# Compiled queries can be read back

A query of conditions on note properties compiles to a text of the grammar in `QueryGrammar`, and
the one reading of that text gives back what was asked for. Whatever the values hold, quotes,
backslashes, parentheses or whole conditions, no value can end early and nothing in it is read as a
part of the query.

Main definitions:

* `Criterion.atom?`, `Scope.atom?`: what a criterion and a scope ask for;
* `Query.reading`: what a query asks for, grouped by its connectors;
* `linkedBy`, `runPieces`: items with their connectors, and what a run of them is written as.

Results:

* `Criterion.condition?_eq`: a condition on a note property is the written form of its atom;
* `clauseTexts_eq_runs_map`: the clauses of criteria are runs of their items;
* `Query.toList_compiled`: the line is made of the written forms of what was asked for;
* `readsQuery_compiled_iff`: the compiled query has one reading, and that is what was asked for.
-/

namespace NoteTools

open Grammar

/-! ## Specification -/

/-- The value of a class as it is to be read: texts and dates as they were given, truth values and
numbers as words. -/
def PropertyClass.operand (value : String) : PropertyClass → Operand
  | .boolean => .word value
  | .numeric => .word (Text.trim value)
  | .date => .literal value
  | .text => .literal value

/-- What a criterion on a note property asks for, unless it is dropped: its key, the token of its
operator, and its value. -/
def Criterion.atom? (c : Criterion) : Option Atom :=
  match c.condition?, PropertyClass.of? (keyOf c.property), Operator.of? c, c.value with
  | some _, some cls, some (.compare op), some value =>
    some ⟨keyOf c.property, op.token, cls.operand value⟩
  | _, _, _, _ => none

/-- The key that a scope compares. -/
def Scope.Kind.key : Scope.Kind → String
  | .children => "parents.noteId"
  | .descendants => "ancestors.noteId"

/-- What a scope asks for, unless its reference is blank. -/
def Scope.atom? (s : Scope) : Option Atom :=
  if Text.blank s.reference then none
  else some ⟨s.kind.key, "=", .literal (Text.trim s.reference)⟩

/-- The conjuncts of a run: atoms held by `or` are alternatives, others stand on their own. -/
def Grammar.Conjunct.ofRun : List (Atom × Connector) → List Conjunct
  | (first, .or) :: (second, _) :: others => [.anyOf first second (others.map Prod.fst)]
  | run => run.map fun a => .atom a.1

/-- What a criterion asks for, with the connector behind it. -/
def Criterion.linkedAtom? (c : Criterion) : Option (Atom × Option Connector) :=
  c.atom?.map fun a => (a, c.connector)

/-- What a query of note properties asks for: its criteria, grouped by their connectors, its scope
and its limit. -/
def Query.reading (q : Query) : Reading where
  conjuncts := (runs (q.criteria.filterMap Criterion.linkedAtom?)).flatMap Conjunct.ofRun ++
    ((q.scope.bind Scope.atom?).map Conjunct.atom).toList
  limit := q.limit.map fun n => n.value.toNat

/-! ## Conditions and scopes are atoms -/

theorem isWord_of_propertyClass {key : String} {cls : PropertyClass}
    (h : PropertyClass.of? key = some cls) : IsWord key.toList := by
  have hkeys : ∀ k ∈ booleanKeys ++ numericKeys ++ dateKeys ++ textKeys, IsWord k.toList := by
    decide +kernel
  apply hkeys
  unfold PropertyClass.of? at h
  split_ifs at h with h₁ h₂ h₃ h₄
  all_goals simp [*]

theorem Comparison.isWord_token (op : Comparison) : IsWord op.token.toList := by
  cases op <;> decide +kernel

/-- The written form of a value is that of what is to be read. -/
theorem PropertyClass.operand_text {cls : PropertyClass} {key value written : String}
    (h : cls.render key value = .ok (.ok written)) :
    (cls.operand value).text = written ∧ (cls.operand value).Readable := by
  cases cls with
  | boolean =>
    simp only [render] at h
    split at h
    · next hvalue =>
      cases h
      refine ⟨rfl, show IsWord value.toList from ?_⟩
      rcases hvalue with rfl | rfl <;> decide +kernel
    · cases h
  | numeric =>
    simp only [render] at h
    split at h
    · next hnumber =>
      cases h
      exact ⟨rfl, Numeric.isWord_of_isFiniteNumber hnumber⟩
    · cases h
  | date =>
    simp only [render, checkDate] at h
    split at h
    · cases h
    split at h
    · cases h
      exact ⟨rfl, trivial⟩
    · cases h
  | text =>
    cases h
    exact ⟨rfl, trivial⟩

/-- A condition on a note property is the written form of an atom. -/
theorem Criterion.condition?_eq {c : Criterion} (hkind : c.kind = .noteProperty) :
    c.condition? = c.atom?.map Atom.text ∧ ∀ a ∈ c.atom?, a.Readable := by
  have hfragment : c.fragment = c.noteFragment := by rw [fragment, hkind]
  obtain ⟨e, h⟩ | ⟨reason, h⟩ | ⟨cls, op, value, written, hcls, hop, hvalue, hrender, h⟩ :=
    noteFragment_cases c
  · simp [condition?, atom?, hfragment, h]
  · simp [condition?, atom?, hfragment, h]
  · obtain ⟨htext, hreadable⟩ := PropertyClass.operand_text hrender
    have hgiven : c.value = some value := (Option.filter_eq_some_iff.mp hvalue).1
    have hcondition := hfragment.trans h
    simp only [condition?, atom?, hcondition, hcls, hop, hgiven]
    refine ⟨by rw [Option.map_some, Atom.text, htext], ?_⟩
    intro a ha
    rw [← Option.some_inj.mp ha]
    generalize keyOf c.property = key at hcls ⊢
    exact ⟨isWord_of_propertyClass hcls, op.isWord_token, hreadable⟩

theorem Scope.Kind.isWord_key (kind : Scope.Kind) : IsWord kind.key.toList := by
  cases kind <;> decide +kernel

theorem Scope.condition?_eq (s : Scope) :
    s.condition? = s.atom?.map Atom.text ∧ ∀ a ∈ s.atom?, a.Readable := by
  unfold condition? atom?
  by_cases h : Text.blank s.reference = true
  · simp [Text.trim_eq_empty_iff, h]
  · simp only [Text.trim_eq_empty_iff, h]
    refine ⟨?_, ?_⟩
    · cases s.kind <;> rfl
    · rintro a ⟨⟩
      exact ⟨s.kind.isWord_key, Comparison.isWord_token .eq, trivial⟩

/-! ## Runs of atoms -/

section
variable {α β : Type} (f : α → β)

theorem carryFrom_map (items : List (α × Option Connector)) (previous : Connector) :
    carryFrom previous (items.map (Prod.map f id)) =
      (carryFrom previous items).map (Prod.map f id) := by
  fun_induction carryFrom previous items with
  | case1 => rfl
  | case2 => rfl
  | case3 previous a own next items ih => exact congrArg _ ih

theorem carry_map (items : List (α × Option Connector)) :
    carry (items.map (Prod.map f id)) = (carry items).map (Prod.map f id) := by
  cases items with
  | nil => rfl
  | cons item items => exact congrArg _ (carryFrom_map f items _)

/-- Runs depend on the connectors only. -/
theorem runs_map (items : List (α × Option Connector)) :
    runs (items.map (Prod.map f id)) = (runs items).map (List.map (Prod.map f id)) := by
  rw [runs, runs, carry_map, List.splitBy_eq_iff]
  obtain ⟨hflatten, -, hchain, hchange⟩ :=
    List.splitBy_eq_iff.mp (rfl : (carry items).splitBy sameConnector = _)
  refine ⟨by rw [← List.map_flatten, ← hflatten], ?_, ?_, ?_⟩
  · simp
  · intro run hrun
    obtain ⟨source, hsource, rfl⟩ := List.mem_map.mp hrun
    exact (List.isChain_map _).mpr (hchain source hsource)
  · refine (List.isChain_map _).mpr (hchange.imp ?_)
    rintro a b ⟨ha, hb, hne⟩
    refine ⟨by simpa using ha, by simpa using hb, ?_⟩
    rw [List.getLast_map, List.head_map]
    exact hne

/-- Where the parts of what becomes of a run are its items, those of all runs are all items. -/
theorem flatMap_runs {γ : Type} {g : List (α × Connector) → List γ} {parts : γ → List α}
    (h : ∀ run, (g run).flatMap parts = run.map Prod.fst) (items : List (α × Option Connector)) :
    ((runs items).flatMap g).flatMap parts = items.map Prod.fst := by
  simp only [List.flatMap_assoc, h]
  rw [← flatten_runs_map_fst items, List.map_flatten, List.flatMap_def]

theorem ne_nil_of_mem_runs {items : List (α × Option Connector)} {run : List (α × Connector)}
    (h : run ∈ runs items) : run ≠ [] := List.ne_nil_of_mem_splitBy h

end

/-- The pieces that a run is written as: its alternatives together, or its conditions one by one. -/
def runPieces : List (String × Connector) → List String
  | run@((_, .or) :: _ :: _) => ["~(" ++ " OR ".intercalate (run.map Prod.fst) ++ ")"]
  | run => run.map Prod.fst

/-- A run is written as its pieces are. -/
theorem spaced_runPieces {run : List (String × Connector)} (h : run ≠ []) :
    ' ' :: (runText run).toList = spaced (runPieces run) := by
  match run with
  | [] => exact absurd rfl h
  | [(t, .and)] => simp [runText, runPieces, spaced]
  | [(t, .or)] => simp [runText, runPieces, spaced]
  | (first, .and) :: (second, k) :: others =>
    rw [runText, List.map_cons, toList_intercalate_cons]
    simp [runPieces, spaced, List.flatMap_def, Function.comp_def]
  | (first, .or) :: (second, k) :: others => simp [runText, runPieces, spaced]

/-- The pieces of a run of atoms are its conjuncts. -/
theorem runPieces_atoms (run : List (Atom × Connector)) :
    runPieces (run.map (Prod.map Atom.text id)) = (Conjunct.ofRun run).map Conjunct.text := by
  match run with
  | [] => rfl
  | [(a, .and)] => rfl
  | [(a, .or)] => rfl
  | (first, .and) :: (second, k) :: others =>
    simp [runPieces, Conjunct.ofRun, Conjunct.text, Function.comp_def]
  | (first, .or) :: (second, k) :: others =>
    simp [runPieces, Conjunct.ofRun, Conjunct.text, Function.comp_def]

theorem flatMap_atoms_ofRun (run : List (Atom × Connector)) :
    (Conjunct.ofRun run).flatMap Conjunct.atoms = run.map Prod.fst := by
  unfold Conjunct.ofRun
  split
  · simp [Conjunct.atoms]
  · rw [List.flatMap_map]
    exact (List.map_eq_flatMap ..).symm

/-! ## The line of a query of note properties -/

theorem live_filterMap_linked? (cs : List Criterion) :
    live (cs.filterMap Criterion.linked?) = cs.filterMap Criterion.linked? := by
  apply List.filter_eq_self.mpr
  intro item hitem
  obtain ⟨c, -, hc⟩ := List.mem_filterMap.mp hitem
  obtain ⟨text, htext, rfl⟩ := Option.map_eq_some_iff.mp hc
  simpa using Criterion.condition_ne_empty htext

section
variable {α : Type} {f : α → String} {g : Criterion → Option α} {cs : List Criterion}

/-- What criteria give, each with the connector behind it. -/
def linkedBy (g : Criterion → Option α) (cs : List Criterion) : List (α × Option Connector) :=
  cs.filterMap fun c => (g c).map fun a => (a, c.connector)

theorem map_fst_linkedBy : (linkedBy g cs).map Prod.fst = cs.filterMap g := by
  rw [linkedBy, List.map_filterMap]
  refine List.filterMap_congr fun c _ => ?_
  cases g c <;> rfl

variable (h : ∀ c ∈ cs, c.condition? = (g c).map f)
include h

/-- Where conditions are the written forms of other things, the clauses are the runs of these. -/
theorem clauseTexts_eq_runs_map : clauseTexts (cs.filterMap Criterion.linked?) =
    (runs (linkedBy g cs)).map fun run => runText (run.map (Prod.map f id)) := by
  have hpairs : (cs.filterMap Criterion.linked?).map Linked.pair =
      (linkedBy g cs).map (Prod.map f id) := by
    rw [linkedBy, List.map_filterMap, List.map_filterMap]
    refine List.filterMap_congr fun c hc => ?_
    rw [Criterion.linked?, h c hc]
    cases g c <;> rfl
  rw [clauseTexts_eq_map_runText, live_filterMap_linked?, hpairs, runs_map, List.map_map]
  rfl

theorem spaced_clauseTexts_map : spaced (clauseTexts (cs.filterMap Criterion.linked?)) =
    spaced ((runs (linkedBy g cs)).flatMap fun run => runPieces (run.map (Prod.map f id))) := by
  rw [clauseTexts_eq_runs_map h, spaced, spaced, List.flatMap_assoc, List.flatMap_map]
  apply List.flatMap_congr
  intro run hrun
  exact spaced_runPieces fun hnil => ne_nil_of_mem_runs hrun (List.map_eq_nil_iff.mp hnil)

end

section
variable {cs : List Criterion} (h : ∀ c ∈ cs, c.kind = .noteProperty)
include h

/-- The clauses of criteria on note properties are the runs of their atoms. -/
theorem clauseTexts_eq_runs_atoms :
    clauseTexts (cs.filterMap Criterion.linked?) =
      (runs (cs.filterMap Criterion.linkedAtom?)).map fun run =>
        runText (run.map (Prod.map Atom.text id)) :=
  clauseTexts_eq_runs_map fun c hc => (Criterion.condition?_eq (h c hc)).1

theorem spaced_clauseTexts :
    spaced (clauseTexts (cs.filterMap Criterion.linked?)) =
      spaced (((runs (cs.filterMap Criterion.linkedAtom?)).flatMap Conjunct.ofRun).map
        Conjunct.text) := by
  rw [spaced_clauseTexts_map fun c hc => (Criterion.condition?_eq (h c hc)).1, List.map_flatMap]
  exact congrArg spaced (List.flatMap_congr fun run _ => runPieces_atoms run)

/-- Criteria on note properties are no free text. -/
theorem filterMap_freeText?_eq_nil : cs.filterMap Criterion.freeText? = [] := by
  apply List.filterMap_eq_nil_iff.mpr
  intro c hc
  rw [Criterion.freeText?, h c hc]

end

/-- Without free text, a line that is not empty starts with the condition that always holds. -/
theorem assemble_blank {t : String} {clauses : List String} {scope : Option String}
    {limit : Option Limit} (ht : Text.blank t = true) (hne : "" ∉ clauses ++ scope.toList)
    (hline : assemble (some t) clauses scope limit ≠ "") :
    assemble (some t) clauses scope limit =
      " ".intercalate (baseCondition :: (clauses ++ scope.toList)) ++
        limitText (limit.map fun n => n.value.toNat) := by
  have hlead : (some t).filter (fun t => !Text.blank t) = none := by simp [ht]
  have hconditions : (clauses ++ scope.toList).filter (· ≠ "") = clauses ++ scope.toList := by
    apply List.filter_eq_self.mpr
    intro a ha
    simpa using ne_of_mem_of_not_mem ha hne
  have hsome : clauses ++ scope.toList ≠ [] := by
    intro hnil
    simp only [assemble, hlead, hnil, List.filter_nil, Option.isNone_none, and_self, if_true,
      ne_eq, not_true_eq_false] at hline
  cases limit with
  | none =>
    simp only [assemble, hlead, hconditions, Option.isNone_none, true_and, Option.getD_none, hsome,
      if_false, Option.map_none, limitText, String.append_empty]
  | some n =>
    simp only [assemble, hlead, hconditions, Option.isNone_none, true_and, Option.getD_none, hsome,
      if_false, Option.map_some, limitText, String.append_assoc]

theorem Scope.bind_condition? (scope : Option Scope) :
    scope.bind Scope.condition? = (scope.bind Scope.atom?).map Atom.text := by
  cases scope with
  | none => rfl
  | some s =>
    rw [Option.bind_some, Option.bind_some]
    exact s.condition?_eq.1

namespace Query

variable {q : Query} {line : String}

theorem texts_eq_nil (htext : ∀ t ∈ q.text, Text.blank t = true)
    (hkind : ∀ c ∈ q.criteria, c.kind = .noteProperty) : q.texts = [] := by
  rw [texts, filterMap_freeText?_eq_nil hkind, List.append_nil, List.filter_eq_nil_iff]
  intro t ht
  simp [htext t (Option.mem_toList.mp ht)]

/-- The conditions of a query are written as its conjuncts are. -/
theorem spaced_conditions (hkind : ∀ c ∈ q.criteria, c.kind = .noteProperty) :
    spaced (clauseTexts (q.criteria.filterMap Criterion.linked?) ++
        (q.scope.bind Scope.condition?).toList) =
      spaced (q.reading.conjuncts.map Conjunct.text) := by
  rw [spaced, List.flatMap_append, ← spaced, ← spaced, spaced_clauseTexts hkind,
    Scope.bind_condition?, reading, List.map_append, spaced, spaced, spaced, List.flatMap_append]
  cases q.scope.bind Scope.atom? <;> rfl

theorem empty_notMem_conditions :
    "" ∉ clauseTexts (q.criteria.filterMap Criterion.linked?) ++
      (q.scope.bind Scope.condition?).toList := by
  rw [List.mem_append, not_or]
  refine ⟨empty_notMem_clauseTexts _, ?_⟩
  rw [Scope.bind_condition?]
  cases q.scope.bind Scope.atom? with
  | none => simp
  | some a => simp [Atom.text]

/-- The line is the condition that always holds and the written forms of what was asked for. -/
theorem toList_compiled (htext : ∀ t ∈ q.text, Text.blank t = true)
    (hkind : ∀ c ∈ q.criteria, c.kind = .noteProperty) (hok : q.compile.result = .ok line)
    (hline : line ≠ "") :
    line.toList = baseCondition.toList ++
      (spaced (q.reading.conjuncts.map Conjunct.text) ++ (limitText q.reading.limit).toList) := by
  rw [compile_result, texts_eq_nil htext hkind] at hok
  split at hok
  · cases hok
  cases hok
  rw [assemble_blank rfl empty_notMem_conditions hline, String.toList_append,
    toList_intercalate_cons, List.append_assoc, ← spaced_conditions hkind]
  rfl

/-- Every criterion that is not dropped is one atom, in order; the scope comes last. -/
theorem flatMap_atoms_reading (q : Query) :
    q.reading.conjuncts.flatMap Conjunct.atoms =
      q.criteria.filterMap Criterion.atom? ++ (q.scope.bind Scope.atom?).toList := by
  have hlinked : (q.criteria.filterMap Criterion.linkedAtom?).map Prod.fst =
      q.criteria.filterMap Criterion.atom? := map_fst_linkedBy
  rw [reading, List.flatMap_append, flatMap_runs flatMap_atoms_ofRun, hlinked]
  cases q.scope.bind Scope.atom? <;> rfl

theorem readable_of_mem_reading (hkind : ∀ c ∈ q.criteria, c.kind = .noteProperty) :
    ∀ a ∈ q.reading.conjuncts.flatMap Conjunct.atoms, a.Readable := by
  intro a ha
  rw [flatMap_atoms_reading, List.mem_append] at ha
  cases ha with
  | inl hcriterion =>
    obtain ⟨c, hc, hatom⟩ := List.mem_filterMap.mp hcriterion
    exact (Criterion.condition?_eq (hkind c hc)).2 a hatom
  | inr hscope =>
    obtain ⟨s, -, hatom⟩ := Option.bind_eq_some_iff.mp (Option.mem_toList.mp hscope)
    exact s.condition?_eq.2 a hatom

end Query

/-- Where a query compiles, a criterion on a note property has no atom only if it is dropped. -/
theorem Criterion.atom?_eq_none_iff {c : Criterion} (hkind : c.kind = .noteProperty)
    (hok : c.dateError? = none) :
    c.atom? = none ↔ ∃ reason, c.fragment = .ok (.dropped reason) := by
  rw [← Option.map_eq_none_iff (f := Atom.text), ← (condition?_eq hkind).1]
  obtain ⟨e, h, -⟩ | ⟨reason, h⟩ | ⟨text, h, -⟩ | ⟨text, h, hfree⟩ := fragment_cases c
  · simp [dateError?, h] at hok
  · simp [condition?, h]
  · simp [condition?, h]
  · simp [freeText?, hkind] at hfree

/-- **Compiled queries can be read back.** The line that a query of note properties compiles to has
one reading. It holds one atom for each criterion that is not dropped, in order, then that of the
scope; atoms are alternatives where their clause is an `or` of two and more, and the limit is that
of the query. -/
theorem readsQuery_compiled_iff (q : Query) (line : String)
    (htext : ∀ t ∈ q.text, Text.blank t = true) (hkind : ∀ c ∈ q.criteria, c.kind = .noteProperty)
    (hok : q.compile.result = .ok line) (hline : line ≠ "") :
    (∀ r, ReadsQuery line r ↔ r = q.reading) ∧
      q.reading.conjuncts.flatMap Conjunct.atoms =
        q.criteria.filterMap Criterion.atom? ++ (q.scope.bind Scope.atom?).toList ∧
      (∀ c ∈ q.criteria, c.atom? = none ↔ ∃ reason, c.fragment = .ok (.dropped reason)) ∧
      clauseTexts (q.criteria.filterMap Criterion.linked?) =
        (runs (q.criteria.filterMap Criterion.linkedAtom?)).map fun run =>
          runText (run.map (Prod.map Atom.text id)) := by
  have hread : ReadsQuery line q.reading :=
    ⟨_, Query.toList_compiled htext hkind hok hline,
      readsTail_text (Query.readable_of_mem_reading hkind) (endsWord_limitText _)
        (readsTail_limitText _)⟩
  refine ⟨fun r => ⟨fun h => h.unique hread, ?_⟩, q.flatMap_atoms_reading, fun c hc =>
    Criterion.atom?_eq_none_iff (hkind c hc)
      (List.findSome?_eq_none_iff.mp (Query.dateError?_eq_none hok) c hc),
    clauseTexts_eq_runs_atoms hkind⟩
  rintro rfl
  exact hread

/-- A query whose values try to end their literals: two alternatives, a criterion that is dropped
between them, two conditions, a scope and a limit. -/
def quotedQuery : Query where
  criteria :=
    [⟨"title", .noteProperty, some "=", some "a' OR note.title = 'b\\", some .or⟩,
     ⟨"colour", .noteProperty, some "=", some "red", some .and⟩,
     ⟨" note.labelCount", .noteProperty, some ">=", some " 2e1 ", none⟩,
     ⟨"isArchived", .noteProperty, some "NOT_EQUAL", some "true", some .and⟩,
     ⟨"dateCreated", .noteProperty, some "<", some "2024-02-29", some .or⟩]
  scope := some ⟨.descendants, " ') limit 5 "⟩
  limit := Limit.of? 7

/-- What `quotedQuery` compiles to. -/
def quotedLine : String :=
  "note.noteId != '' ~(note.title = 'a\\' OR note.title = \\'b\\\\' OR note.labelCount >= 2e1)" ++
    " note.isArchived != true note.dateCreated < '2024-02-29'" ++
    " note.ancestors.noteId = '\\') limit 5' limit 7"

/-- What `quotedQuery` asks for. -/
def quotedReading : Reading where
  conjuncts :=
    [.anyOf ⟨"title", "=", .literal "a' OR note.title = 'b\\"⟩ ⟨"labelCount", ">=", .word "2e1"⟩ [],
     .atom ⟨"isArchived", "!=", .word "true"⟩,
     .atom ⟨"dateCreated", "<", .literal "2024-02-29"⟩,
     .atom ⟨"ancestors.noteId", "=", .literal "') limit 5"⟩]
  limit := some 7

theorem readsQuery_compiled_iff_quoted :
    quotedQuery.compile.result = .ok quotedLine ∧ quotedLine ≠ "" ∧
      ∀ r, ReadsQuery quotedLine r ↔ r = quotedReading := by
  have hok : quotedQuery.compile.result = .ok quotedLine := by decide +kernel
  have hline : quotedLine ≠ "" := by decide +kernel
  have hreading : quotedQuery.reading = quotedReading := by decide +kernel
  rw [← hreading]
  exact ⟨hok, hline, (readsQuery_compiled_iff quotedQuery quotedLine (by rintro t ⟨⟩)
    (by decide +kernel) hok hline).1⟩

end NoteTools
