import Mathlib.Logic.Relation
import NoteTools.Proofs.Compilation

/-!
# The normal form of a query

What a query compiles to depends on little of it: on its free texts in order, on its conditions in
order, and on the connectors between these. Its normal form keeps just that.

Main definitions:

* `Query.normal`: the normal form;
* `Unseen`: a change to the criteria that the compiled query does not show.

Results:

* `compile_result_congr`: which parts of the criteria count;
* `compile_normal_form`: a query that compiles has the compiled text of its normal form, of which
  nothing is dropped, and no sequence of unseen changes has an effect on what a query compiles to.
-/

namespace NoteTools

/-! ## Specification -/

/-- Criteria with the connector of the last one removed. -/
def unlinkLastCriterion : List Criterion → List Criterion
  | [] => []
  | [c] => [{ c with connector := none }]
  | c :: cs => c :: unlinkLastCriterion cs

/-- The query with one free text and with those criteria only that become conditions. -/
def Query.normal (q : Query) : Query where
  text := if q.texts = [] then none else some (" ".intercalate q.texts)
  criteria := unlinkLastCriterion (q.criteria.filter fun c => c.condition?.isSome)
  scope := q.scope
  limit := q.limit

/-- A change to a list of criteria that the compiled query does not show. -/
inductive Unseen : List Criterion → List Criterion → Prop
  /-- A criterion that is dropped is put anywhere. -/
  | insert (front back : List Criterion) (c : Criterion) (reason : DropReason) :
    c.fragment = .ok (.dropped reason) → Unseen (front ++ back) (front ++ c :: back)
  /-- Free text is moved, but not across other free text. -/
  | move (front passed back : List Criterion) (c : Criterion) (text : String) :
    c.fragment = .ok (.freeText text) → (∀ d ∈ passed, d.freeText? = none) →
    Unseen (front ++ c :: (passed ++ back)) (front ++ passed ++ c :: back)
  /-- A criterion that becomes no condition gets another connector, or none. -/
  | relink (front back : List Criterion) (c : Criterion) (connector : Option Connector) :
    c.condition? = none → Unseen (front ++ c :: back) (front ++ { c with connector } :: back)
  /-- A criterion with no condition behind it gets another connector, or none. -/
  | relinkLast (front back : List Criterion) (c : Criterion) (connector : Option Connector) :
    (∀ d ∈ back, d.condition? = none) →
    Unseen (front ++ c :: back) (front ++ { c with connector } :: back)

/-! ## Connectors that do not count -/

theorem unlinkLast_concat (items : List Linked) (c : Linked) :
    unlinkLast (items ++ [c]) = items ++ [{ c with connector := none }] := by
  induction items with
  | nil => rfl
  | cons d items ih =>
    rw [List.cons_append, unlinkLast, ih, List.cons_append]
    simp

theorem live_unlinkLast (items : List Linked) :
    unlinkLast (live (unlinkLast items)) = unlinkLast (live items) := by
  obtain rfl | ⟨front, c, rfl⟩ := List.eq_nil_or_concat' items
  · rfl
  · by_cases h : c.condition = "" <;> simp [unlinkLast_concat, live, h]

/-- The connector of the last item has no effect on the clauses. -/
theorem clauseTexts_unlinkLast (items : List Linked) :
    clauseTexts (unlinkLast items) = clauseTexts items := by
  rw [clauseTexts, clauses_eq, live_unlinkLast, ← clauses_eq, ← clauseTexts]

namespace Criterion

theorem fragment_relinked (c : Criterion) (connector : Option Connector) :
    ({ c with connector } : Criterion).fragment = c.fragment := by
  simp only [fragment, Criterion.attribute, noteFragment, freeText?, givenValue?, Operator.of?,
    Fragment.unknownOperator]

theorem dateError?_relinked (c : Criterion) (connector : Option Connector) :
    ({ c with connector } : Criterion).dateError? = c.dateError? := by
  rw [dateError?, dateError?, fragment_relinked]

theorem condition?_relinked (c : Criterion) (connector : Option Connector) :
    ({ c with connector } : Criterion).condition? = c.condition? := by
  rw [condition?, condition?, fragment_relinked]

theorem freeText?_relinked (c : Criterion) (connector : Option Connector) :
    ({ c with connector } : Criterion).freeText? = c.freeText? := rfl

theorem linked?_eq_none {c : Criterion} (h : c.condition? = none) : c.linked? = none := by
  rw [linked?, h]; rfl

theorem linked?_of_condition? {c : Criterion} {text : String} (h : c.condition? = some text) :
    c.linked? = some ⟨text, c.connector⟩ := by
  rw [linked?, h]; rfl

end Criterion

/-! ## What counts of the criteria -/

/-- **What counts.** Criteria with the same first invalid date, the same free texts and the same
conditions compile to the same, whatever the connector of the last condition. -/
theorem compile_result_congr {q : Query} {cs : List Criterion}
    (hdate : cs.findSome? Criterion.dateError? = q.criteria.findSome? Criterion.dateError?)
    (hfree : cs.filterMap Criterion.freeText? = q.criteria.filterMap Criterion.freeText?)
    (hlinked : unlinkLast (cs.filterMap Criterion.linked?) =
      unlinkLast (q.criteria.filterMap Criterion.linked?)) :
    (Query.compile { q with criteria := cs }).result = q.compile.result := by
  rw [compile_result, compile_result]
  simp only [Query.texts, hdate, hfree]
  rw [← clauseTexts_unlinkLast, hlinked, clauseTexts_unlinkLast]

/-- An unseen change leaves what counts as it is. -/
theorem Unseen.same {cs cs' : List Criterion} (h : Unseen cs cs') :
    cs.findSome? Criterion.dateError? = cs'.findSome? Criterion.dateError? ∧
      cs.filterMap Criterion.freeText? = cs'.filterMap Criterion.freeText? ∧
      unlinkLast (cs.filterMap Criterion.linked?) =
        unlinkLast (cs'.filterMap Criterion.linked?) := by
  cases h with
  | insert front back c reason hc =>
    have hdate : c.dateError? = none := by simp [Criterion.dateError?, hc]
    have hfree : c.freeText? = none := c.freeText?_eq_none (by simp [hc])
    have hlinked : c.linked? = none :=
      Criterion.linked?_eq_none (by simp [Criterion.condition?, hc])
    simp [List.findSome?_append, hdate, hfree, hlinked]
  | move front passed back c text hc hpassed =>
    have hdate : c.dateError? = none := by simp [Criterion.dateError?, hc]
    have hlinked : c.linked? = none :=
      Criterion.linked?_eq_none (by simp [Criterion.condition?, hc])
    have hnone : passed.filterMap Criterion.freeText? = [] := List.filterMap_eq_nil_iff.mpr hpassed
    simp [List.findSome?_append, List.filterMap_cons, hdate, hlinked, hnone]
  | relink front back c connector hc =>
    have hlinked : c.linked? = none := Criterion.linked?_eq_none hc
    have hlinked' : ({ c with connector } : Criterion).linked? = none :=
      Criterion.linked?_eq_none (by rw [Criterion.condition?_relinked, hc])
    simp [List.findSome?_append, List.findSome?_cons, List.filterMap_cons,
      Criterion.dateError?_relinked, Criterion.freeText?_relinked, hlinked, hlinked']
  | relinkLast front back c connector hback =>
    have hnone : back.filterMap Criterion.linked? = [] :=
      List.filterMap_eq_nil_iff.mpr fun d hd => Criterion.linked?_eq_none (hback d hd)
    have hcond := c.condition?_relinked connector
    refine ⟨?_, ?_, ?_⟩
    · simp [List.findSome?_append, List.findSome?_cons, Criterion.dateError?_relinked]
    · simp [List.filterMap_cons, Criterion.freeText?_relinked]
    · rw [List.filterMap_append, List.filterMap_append, List.filterMap_cons, List.filterMap_cons,
        hnone]
      cases hc : c.condition? with
      | none =>
        rw [Criterion.linked?_eq_none hc, Criterion.linked?_eq_none (hcond.trans hc)]
      | some text =>
        rw [Criterion.linked?_of_condition? hc, Criterion.linked?_of_condition? (hcond.trans hc)]
        simp only [unlinkLast_concat]

/-! ## The normal form -/

theorem blank_append (s t : String) : Text.blank (s ++ t) = (Text.blank s && Text.blank t) := by
  simp [Text.blank]

/-- Texts of which none is blank are not blank when joined. -/
theorem blank_intercalate {texts : List String} (hne : texts ≠ [])
    (h : ∀ t ∈ texts, Text.blank t = false) (separator : String) :
    Text.blank (separator.intercalate texts) = false := by
  obtain ⟨first, rest, rfl⟩ := List.exists_cons_of_ne_nil hne
  have hfirst := h first List.mem_cons_self
  cases rest with
  | nil => simpa using hfirst
  | cons second rest => simp [blank_append, hfirst]

namespace Query

theorem not_blank_of_mem_texts {q : Query} {t : String} (h : t ∈ q.texts) :
    Text.blank t = false := by
  simpa using (List.mem_filter.mp h).2

theorem mem_texts_iff {q : Query} {t : String} :
    t ∈ q.texts ↔
      Text.blank t = false ∧ (q.text = some t ∨ ∃ c ∈ q.criteria, c.freeText? = some t) := by
  simp only [texts, List.mem_filter, List.mem_append, Option.mem_toList, List.mem_filterMap,
    Bool.not_eq_eq_eq_not, Bool.not_true]
  exact and_comm

/-- A query leads with free text exactly when one of its texts is not blank. -/
theorem hasFreeText_iff {q : Query} : q.hasFreeText = true ↔ q.texts ≠ [] := by
  rw [hasFreeText, Bool.or_eq_true, Option.any_eq_true, List.any_eq_true]
  constructor
  · rintro (⟨t, ht, hblank⟩ | ⟨c, hc, hsome⟩)
    · exact List.ne_nil_of_mem (mem_texts_iff.mpr ⟨by simpa using hblank, .inl ht⟩)
    · obtain ⟨t, ht⟩ := Option.isSome_iff_exists.mp hsome
      have hblank := Criterion.not_blank_of_freeText? ht
      exact List.ne_nil_of_mem (mem_texts_iff.mpr ⟨hblank, .inr ⟨c, hc, ht⟩⟩)
  · intro h
    obtain ⟨t, ht⟩ := List.exists_mem_of_ne_nil _ h
    obtain ⟨hblank, htext | ⟨c, hc, hfree⟩⟩ := mem_texts_iff.mp ht
    · exact .inl ⟨t, htext, by simp [hblank]⟩
    · exact .inr ⟨c, hc, by simp [hfree]⟩

end Query

/-! ### Criteria of the normal form -/

theorem unlinkLastCriterion_concat (cs : List Criterion) (c : Criterion) :
    unlinkLastCriterion (cs ++ [c]) = cs ++ [{ c with connector := none }] := by
  induction cs with
  | nil => rfl
  | cons d cs ih =>
    rw [List.cons_append, unlinkLastCriterion, ih, List.cons_append]
    simp

theorem condition?_of_mem_unlinkLastCriterion {cs : List Criterion}
    (h : ∀ c ∈ cs, c.condition?.isSome = true) :
    ∀ c ∈ unlinkLastCriterion cs, c.condition?.isSome = true := by
  obtain rfl | ⟨front, c, rfl⟩ := List.eq_nil_or_concat' cs
  · exact h
  · rw [unlinkLastCriterion_concat]
    intro d hd
    obtain hd | hd := List.mem_append.mp hd
    · exact h d (List.mem_append_left _ hd)
    · rw [List.mem_singleton.mp hd, Criterion.condition?_relinked]
      exact h c (by simp)

theorem filterMap_linked?_unlinkLastCriterion {cs : List Criterion}
    (h : ∀ c ∈ cs, c.condition?.isSome = true) :
    (unlinkLastCriterion cs).filterMap Criterion.linked? =
      unlinkLast (cs.filterMap Criterion.linked?) := by
  obtain rfl | ⟨front, c, rfl⟩ := List.eq_nil_or_concat' cs
  · rfl
  · obtain ⟨text, hc⟩ := Option.isSome_iff_exists.mp (h c (by simp))
    have hc' := (c.condition?_relinked none).trans hc
    simp [unlinkLastCriterion_concat, Criterion.linked?_of_condition? hc,
      Criterion.linked?_of_condition? hc', unlinkLast_concat]

/-- Of criteria that all become conditions, none is dropped, has free text or an invalid date. -/
theorem readCriteria_conditions {cs : List Criterion} (h : ∀ c ∈ cs, c.condition?.isSome = true) :
    cs.findSome? Criterion.dateError? = none ∧ cs.filterMap Criterion.freeText? = [] ∧
      ∀ index, dropsFrom index (readCriteria cs).1 = [] := by
  induction cs with
  | nil => exact ⟨rfl, rfl, fun _ => rfl⟩
  | cons c cs ih =>
    obtain ⟨hdate, hfree, hdrops⟩ := ih fun d hd => h d (List.mem_cons_of_mem _ hd)
    obtain ⟨text, hc⟩ := Option.isSome_iff_exists.mp (h c List.mem_cons_self)
    have hf := Criterion.fragment_of_condition? hc
    refine ⟨?_, ?_, fun index => ?_⟩
    · simp [Criterion.dateError?, hf, hdate]
    · rw [List.filterMap_cons, c.freeText?_eq_none (by simp [hf]), hfree]
    · rw [readCriteria_cons hf, dropsFrom, hdrops]
      simp

namespace Query

theorem normal_criteria_conditions (q : Query) :
    ∀ c ∈ q.normal.criteria, c.condition?.isSome = true :=
  condition?_of_mem_unlinkLastCriterion fun _ hc => (List.mem_filter.mp hc).2

theorem normal_criteria_linked (q : Query) :
    q.normal.criteria.filterMap Criterion.linked? =
      unlinkLast (q.criteria.filterMap Criterion.linked?) := by
  rw [normal, filterMap_linked?_unlinkLastCriterion fun _ hc => (List.mem_filter.mp hc).2,
    List.filterMap_filter]
  congr 2
  funext c
  cases hc : c.condition? <;> simp [Criterion.linked?, hc]

/-- The normal form has one free text, if any. -/
theorem normal_texts (q : Query) :
    q.normal.texts = if q.texts = [] then [] else [" ".intercalate q.texts] := by
  have hfree := (readCriteria_conditions q.normal_criteria_conditions).2.1
  rw [texts, hfree, List.append_nil, normal]
  by_cases h : q.texts = []
  · simp [h]
  · have hblank := blank_intercalate h (fun t ht => not_blank_of_mem_texts ht) " "
    simp [h, hblank]

end Query

/-- The texts of the normal form, joined, are those of the query, joined. -/
theorem Query.intercalate_normal_texts (q : Query) :
    " ".intercalate q.normal.texts = " ".intercalate q.texts := by
  rw [normal_texts]
  split <;> simp [*]

/-- Changes that are unseen one by one are unseen together. -/
theorem compile_result_of_eqvGen {q : Query} {cs cs' : List Criterion}
    (h : Relation.EqvGen Unseen cs cs') :
    (Query.compile { q with criteria := cs' }).result =
      (Query.compile { q with criteria := cs }).result := by
  induction h with
  | rel cs cs' step =>
    obtain ⟨hdate, hfree, hlinked⟩ := step.same
    exact compile_result_congr (q := { q with criteria := cs }) hdate.symm hfree.symm hlinked.symm
  | refl cs => rfl
  | symm cs cs' _ ih => exact ih.symm
  | trans cs cs' cs'' _ _ ih ih' => exact ih'.trans ih

/-- **Normal form.** A query that compiles has the compiled text of its normal form, which leads
with free text exactly when the query does, and of which nothing is dropped. No sequence of unseen
changes to the criteria has an effect on what a query compiles to. -/
theorem compile_normal_form (q : Query) :
    (∀ line, q.compile.result = .ok line → q.normal.compile.result = .ok line ∧
      q.normal.hasFreeText = q.hasFreeText ∧ q.normal.compile.drops = []) ∧
    ∀ criteria, Relation.EqvGen Unseen q.criteria criteria →
      (Query.compile { q with criteria }).result = q.compile.result := by
  refine ⟨fun line hline => ?_, fun criteria h => compile_result_of_eqvGen h⟩
  obtain ⟨hdate, -, hdrops⟩ := readCriteria_conditions q.normal_criteria_conditions
  refine ⟨?_, ?_, hdrops 0⟩
  · rw [compile_result] at hline ⊢
    cases hq : q.criteria.findSome? Criterion.dateError? with
    | some e => rw [hq] at hline; cases hline
    | none =>
      rw [hq] at hline
      rw [hdate, ← hline, q.normal_criteria_linked, clauseTexts_unlinkLast,
        q.intercalate_normal_texts]
      rfl
  · rw [Bool.eq_iff_iff, Query.hasFreeText_iff, Query.hasFreeText_iff, q.normal_texts]
    split <;> simp [*]

/-- A query for books or films with free text and a dropped criterion among them. -/
def shelfQuery : Query where
  text := some "dark"
  criteria := [
    { property := "book", kind := .label, connector := some .or },
    { property := "genre", kind := .label, op := some "like", connector := some .and },
    { property := "ring", kind := .freeText, connector := some .and },
    { property := "film", kind := .label, connector := some .and }]

theorem compile_normal_form_shelf :
    shelfQuery.compile.result = .ok "dark ring ~(#book OR #film)" ∧
      shelfQuery.normal.compile.result = .ok "dark ring ~(#book OR #film)" ∧
      Relation.EqvGen Unseen shelfQuery.criteria
        (shelfQuery.criteria.take 3 ++ [{ property := "film", kind := .label }]) ∧
      (Query.compile { shelfQuery with
        criteria := shelfQuery.criteria.take 3 ++
          [{ property := "film", kind := .label }] }).result =
        shelfQuery.compile.result := by
  have hline : shelfQuery.compile.result = .ok "dark ring ~(#book OR #film)" := rfl
  have hunseen : Relation.EqvGen Unseen shelfQuery.criteria
      (shelfQuery.criteria.take 3 ++ [{ property := "film", kind := .label }]) :=
    .rel _ _ (.relinkLast (shelfQuery.criteria.take 3) []
      { property := "film", kind := .label, connector := some .and } none (by simp))
  exact ⟨hline, ((compile_normal_form shelfQuery).1 _ hline).1, hunseen,
    (compile_normal_form shelfQuery).2 _ hunseen⟩

end NoteTools
