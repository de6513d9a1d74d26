import NoteTools.Proofs.ClauseRuns
import NoteTools.Query.Compile

/-!
# What a query compiles to

`Query.compile` reads the criteria one by one and puts what they become into three lists. Here each
of these lists is given by the criteria themselves: a criterion is an invalid date, a piece of free
text, a condition, or nothing.

Results:

* `attribute_shapes`, `noteFragment_cases`: what a condition on a label or a relation is made of,
  and one on a note property;
* `condition_ne_empty`: a condition is never empty, so an empty one marks a dropped criterion;
* `compile_result`: the compiled query, or the error of the first invalid date.
-/

namespace NoteTools

/-! ## What a criterion becomes -/

namespace Criterion

/-- The condition that a criterion becomes, if it becomes one. -/
def condition? (c : Criterion) : Option String :=
  match c.fragment with
  | .ok (.condition text) => some text
  | _ => none

/-- The condition that a criterion becomes, with the connector behind it. -/
def linked? (c : Criterion) : Option Linked :=
  c.condition?.map fun text => ⟨text, c.connector⟩

/-- The error of a criterion whose date is invalid. -/
def dateError? (c : Criterion) : Option DateError :=
  match c.fragment with
  | .error e => some e
  | .ok _ => none

/-- The path through which a value is compared: that of the title for a relation whose name has
none. -/
def comparedPath (c : Criterion) : String :=
  if c.kind = .relation ∧ '.' ∉ (Text.trim c.property).toList then ".title" else ""

theorem fragment_of_condition? {c : Criterion} {text : String} (h : c.condition? = some text) :
    c.fragment = .ok (.condition text) := by
  rw [condition?] at h
  split at h
  · next text' heq => cases h; exact heq
  · cases h

/-- A criterion on a label or a relation is dropped, or it has a name and becomes a condition. -/
theorem attribute_shapes (sigil : String) (c : Criterion) :
    (∃ reason, c.attribute sigil = .dropped reason) ∨ Text.trim c.property ≠ "" ∧
      (Operator.of? c = some .present ∧
          c.attribute sigil = .condition (sigil ++ Text.trim c.property) ∨
        Operator.of? c = some .absent ∧
          c.attribute sigil = .condition (sigil ++ "!" ++ Text.trim c.property) ∨
        ∃ op value, Operator.of? c = some (.compare op) ∧ c.value = some value ∧
          c.attribute sigil = .condition (sigil ++ Text.trim c.property ++ c.comparedPath ++ " " ++
            op.token ++ " " ++ Text.Quoted.quote value)) := by
  unfold Criterion.attribute
  dsimp only
  split
  · exact .inl ⟨_, rfl⟩
  next hname =>
  split
  · exact .inl ⟨_, rfl⟩
  next hop => exact .inr ⟨hname, .inl ⟨hop, rfl⟩⟩
  next hop => exact .inr ⟨hname, .inr (.inl ⟨hop, rfl⟩)⟩
  next op hop =>
  split
  · exact .inl ⟨_, rfl⟩
  next value hvalue =>
    have hgiven : c.value = some value := (Option.filter_eq_some_iff.mp hvalue).1
    exact .inr ⟨hname, .inr (.inr ⟨op, value, hop, hgiven, rfl⟩)⟩

/-- A label or a relation becomes a condition that starts with its sigil, or nothing. -/
theorem attribute_cases (sigil : String) (c : Criterion) :
    (∃ rest, c.attribute sigil = .condition (sigil ++ rest)) ∨
      ∃ reason, c.attribute sigil = .dropped reason := by
  obtain ⟨reason, h⟩ | ⟨-, ⟨-, h⟩ | ⟨-, h⟩ | ⟨op, value, -, -, h⟩⟩ := attribute_shapes sigil c
  · exact .inr ⟨reason, h⟩
  · exact .inl ⟨_, h⟩
  · exact .inl ⟨_, by rw [h, String.append_assoc]⟩
  · exact .inl ⟨_, by simp only [h, String.append_assoc]; rfl⟩

/-- A note property is an invalid date, or becomes nothing, or a condition: a known key, a
comparison, and the written form of a value that is not blank. -/
theorem noteFragment_cases (c : Criterion) :
    (∃ e, c.noteFragment = .error e) ∨ (∃ reason, c.noteFragment = .ok (.dropped reason)) ∨
      ∃ cls op value written, PropertyClass.of? (keyOf c.property) = some cls ∧
        Operator.of? c = some (.compare op) ∧ c.givenValue? = some value ∧
        cls.render (keyOf c.property) value = .ok (.ok written) ∧
        c.noteFragment =
          .ok (.condition ("note." ++ keyOf c.property ++ " " ++ op.token ++ " " ++ written)) := by
  unfold noteFragment
  dsimp only
  split
  · exact .inr (.inl ⟨_, rfl⟩)
  split
  · exact .inr (.inl ⟨_, rfl⟩)
  next cls hcls =>
  split
  · exact .inr (.inl ⟨_, rfl⟩)
  · exact .inr (.inl ⟨_, rfl⟩)
  · exact .inr (.inl ⟨_, rfl⟩)
  next op hop =>
  split
  · exact .inr (.inl ⟨_, rfl⟩)
  next value hvalue =>
  match hrender : cls.render (keyOf c.property) value with
  | .error e => exact .inl ⟨e, rfl⟩
  | .ok (.error reason) => exact .inr (.inl ⟨reason, rfl⟩)
  | .ok (.ok written) =>
    exact .inr (.inr ⟨cls, op, value, written, hcls, hop, hvalue, hrender, rfl⟩)

/-- What a criterion can become. -/
theorem fragment_cases (c : Criterion) :
    (∃ e, c.fragment = .error e ∧ c.kind = .noteProperty) ∨
      (∃ reason, c.fragment = .ok (.dropped reason)) ∨
      (∃ text, c.fragment = .ok (.condition text) ∧ c.kind ≠ .freeText ∧ text ≠ "") ∨
      ∃ text, c.fragment = .ok (.freeText text) ∧ c.freeText? = some text := by
  unfold fragment
  split
  · next hkind =>
    obtain ⟨rest, h⟩ | ⟨reason, h⟩ := attribute_cases "#" c
    · exact .inr (.inr (.inl ⟨_, by rw [h], by simp [hkind], by simp⟩))
    · exact .inr (.inl ⟨reason, by rw [h]⟩)
  · next hkind =>
    obtain ⟨rest, h⟩ | ⟨reason, h⟩ := attribute_cases "~" c
    · exact .inr (.inr (.inl ⟨_, by rw [h], by simp [hkind], by simp⟩))
    · exact .inr (.inl ⟨reason, by rw [h]⟩)
  · next hkind =>
    obtain ⟨e, h⟩ | ⟨reason, h⟩ | ⟨cls, op, value, written, -, -, -, -, h⟩ := noteFragment_cases c
    · exact .inl ⟨e, h, hkind⟩
    · exact .inr (.inl ⟨reason, h⟩)
    · exact .inr (.inr (.inl ⟨_, h, by simp [hkind], by simp⟩))
  · split
    · next text h => exact .inr (.inr (.inr ⟨text, rfl, h⟩))
    · exact .inr (.inl ⟨_, rfl⟩)

theorem condition_ne_empty {c : Criterion} {text : String} (h : c.condition? = some text) :
    text ≠ "" := by
  have hf := fragment_of_condition? h
  obtain ⟨e, h', -⟩ | ⟨reason, h'⟩ | ⟨text', h', -, hne⟩ | ⟨text', h', -⟩ := fragment_cases c
  all_goals rw [h'] at hf
  · cases hf
  · cases hf
  · cases hf; exact hne
  · cases hf

/-- A criterion with free text becomes that. -/
theorem fragment_of_freeText? {c : Criterion} {text : String} (h : c.freeText? = some text) :
    c.fragment = .ok (.freeText text) := by
  have hkind : c.kind = .freeText := by
    unfold freeText? at h
    split at h
    · assumption
    · cases h
  unfold fragment
  rw [hkind]
  simp only [h]

theorem freeText?_of_fragment {c : Criterion} {text : String}
    (h : c.fragment = .ok (.freeText text)) : c.freeText? = some text := by
  obtain ⟨e, h', -⟩ | ⟨reason, h'⟩ | ⟨text', h', -⟩ | ⟨text', h', hfree⟩ := fragment_cases c
  all_goals rw [h'] at h
  all_goals cases h
  exact hfree

theorem freeText?_eq_none {c : Criterion} (h : ∀ text, c.fragment ≠ .ok (.freeText text)) :
    c.freeText? = none := by
  cases hfree : c.freeText? with
  | none => rfl
  | some text => exact absurd (fragment_of_freeText? hfree) (h text)

/-- Free text is never blank. -/
theorem not_blank_of_freeText? {c : Criterion} {text : String} (h : c.freeText? = some text) :
    Text.blank text = false := by
  unfold freeText? at h
  split at h
  · simpa using (Option.filter_eq_some_iff.mp h).2
  · cases h

end Criterion

/-! ## Reading the criteria -/

theorem readCriteria_snd (cs : List Criterion) :
    (readCriteria cs).2 = cs.findSome? Criterion.dateError? := by
  induction cs with
  | nil => rfl
  | cons c cs ih =>
    rw [readCriteria, List.findSome?_cons, ← ih]
    cases h : c.fragment <;> simp [Criterion.dateError?, h]

theorem readCriteria_cons {c : Criterion} {f : Fragment} (h : c.fragment = .ok f)
    (cs : List Criterion) : (readCriteria (c :: cs)).1 = (c, f) :: (readCriteria cs).1 := by
  simp [readCriteria, h]

theorem findSome?_dateError?_cons {c : Criterion} {cs : List Criterion}
    (h : (c :: cs).findSome? Criterion.dateError? = none) :
    (∃ f, c.fragment = .ok f) ∧ cs.findSome? Criterion.dateError? = none := by
  obtain ⟨hc, hcs⟩ := List.forall_mem_cons.mp (List.findSome?_eq_none_iff.mp h)
  refine ⟨?_, List.findSome?_eq_none_iff.mpr hcs⟩
  cases hf : c.fragment with
  | error e => simp [Criterion.dateError?, hf] at hc
  | ok f => exact ⟨f, rfl⟩

/-- Without an invalid date, the free texts read are those of the criteria. -/
theorem freeTexts_readCriteria {cs : List Criterion}
    (h : cs.findSome? Criterion.dateError? = none) :
    freeTexts (readCriteria cs).1 = cs.filterMap Criterion.freeText? := by
  induction cs with
  | nil => rfl
  | cons c cs ih =>
    obtain ⟨⟨f, hf⟩, hcs⟩ := findSome?_dateError?_cons h
    rw [readCriteria_cons hf, freeTexts, List.filterMap_cons, List.filterMap_cons, ← ih hcs]
    cases f with
    | condition text => rw [c.freeText?_eq_none (by simp [hf])]; rfl
    | freeText text => rw [Criterion.freeText?_of_fragment hf]; rfl
    | dropped reason => rw [c.freeText?_eq_none (by simp [hf])]; rfl

/-- Without an invalid date, the conditions read are those of the criteria. -/
theorem live_linkedConditions_readCriteria {cs : List Criterion}
    (h : cs.findSome? Criterion.dateError? = none) :
    live (linkedConditions (readCriteria cs).1) = cs.filterMap Criterion.linked? := by
  induction cs with
  | nil => rfl
  | cons c cs ih =>
    obtain ⟨⟨f, hf⟩, hcs⟩ := findSome?_dateError?_cons h
    rw [readCriteria_cons hf, linkedConditions, List.filterMap_cons, List.filterMap_cons, ← ih hcs]
    cases f with
    | condition text =>
      have hc : c.condition? = some text := by simp [Criterion.condition?, hf]
      simp [live, linkedConditions, Criterion.linked?, hc, Criterion.condition_ne_empty hc]
    | freeText text => simp [linkedConditions, Criterion.linked?, Criterion.condition?, hf]
    | dropped reason =>
      -- The empty condition of a dropped criterion does not live.
      simp [live, linkedConditions, Criterion.linked?, Criterion.condition?, hf]

/-! ## The compiled query -/

/-- The free texts of a query that are not blank, its own text first. -/
def Query.texts (q : Query) : List String :=
  (q.text.toList ++ q.criteria.filterMap Criterion.freeText?).filter fun t => !Text.blank t

theorem clauseTexts_live (items : List Linked) : clauseTexts (live items) = clauseTexts items := by
  simp [clauseTexts, clauses_eq, live]

/-- **What a query compiles to.** The first invalid date is the error; without one, the line is made
of the free texts, the conditions with their connectors, the scope and the limit. -/
theorem compile_result (q : Query) :
    q.compile.result = match q.criteria.findSome? Criterion.dateError? with
      | some e => .error e
      | none => .ok (assemble (some (" ".intercalate q.texts))
          (clauseTexts (q.criteria.filterMap Criterion.linked?)) (q.scope.bind Scope.condition?)
          q.limit) := by
  rw [Query.compile, ← readCriteria_snd]
  cases h : (readCriteria q.criteria).2 with
  | some e => simp [h]
  | none =>
    have hnone : q.criteria.findSome? Criterion.dateError? = none := by rw [← readCriteria_snd, h]
    simp only [h, Query.line, Query.texts, freeTexts_readCriteria hnone,
      ← live_linkedConditions_readCriteria hnone, clauseTexts_live]

/-- No criterion of a query that compiles has an invalid date. -/
theorem Query.dateError?_eq_none {q : Query} {line : String} (h : q.compile.result = .ok line) :
    q.criteria.findSome? Criterion.dateError? = none := by
  rw [compile_result] at h
  split at h
  · cases h
  · assumption

end NoteTools
