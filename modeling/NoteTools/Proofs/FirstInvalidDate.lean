import NoteTools.Proofs.PropertyConditions
import NoteTools.Proofs.NormalForm
import NoteTools.Proofs.SearchPlan
import NoteTools.Query.Trace

/-!
# The first invalid date

A compilation fails exactly when some criterion compares a date with a value that is refused. The
first such criterion decides: its error is the error of the compilation, the criteria dropped in
front of it are reported, and nothing behind it is looked at. What else the query asks for plays no
part, and neither do the connectors.

Main definitions:

* `Criterion.RefusedDate`: a criterion that compares a date with a refused value;
* `FirstRefused`: the first one of a list;
* `Query.SameUpTo`: queries whose first criteria differ in their connectors only.

Results:

* `Criterion.fragment_eq_error_iff`: the criteria that are errors;
* `readCriteria_append_cons`: reading stops at the first error;
* `compile_fails_at_first`: when a compilation fails, how, and what has no say in it.
-/

namespace NoteTools

/-! ## Specification -/

/-- A criterion compares a date with a value that is refused. -/
structure Criterion.RefusedDate (c : Criterion) (value : String) (e : DateError) : Prop where
  compares : c.Compares value
  key : keyOf c.property ∈ ["dateCreated", "dateModified", "utcDateCreated", "utcDateModified"]
  refused : checkDate value (keyOf c.property) = .error e

/-- The criterion at an index is the first one that compares a date with a refused value. -/
structure FirstRefused (cs : List Criterion) (i : Nat) (c : Criterion) (value : String)
    (e : DateError) : Prop where
  here : cs[i]? = some c
  refused : c.RefusedDate value e
  first : ∀ j < i, ∀ d, cs[j]? = some d → ∀ v e', ¬d.RefusedDate v e'

/-- A criterion without its connector. -/
def Criterion.unlinked (c : Criterion) : Criterion :=
  { c with connector := none }

/-- A notice without the connector of its criterion. -/
def Notice.unlinked : Notice → Notice
  | .skipped d => .skipped { d with criterion := d.criterion.unlinked }
  | .compiled line => .compiled line

/-- As many first criteria of two queries differ in their connectors only. -/
def Query.SameUpTo (n : Nat) (q q' : Query) : Prop :=
  (q.criteria.take n).map Criterion.unlinked = (q'.criteria.take n).map Criterion.unlinked

/-- How a compilation fails at the criterion of an index. -/
structure Query.FailsAt (q : Query) (i : Nat) (c : Criterion) (value : String) (e : DateError) :
    Prop where
  /-- The error is that of the check, and names the key and the value as it was given. -/
  error : q.compile.result = .error e ∧
    (e = .badShape (Criterion.keyOf c.property) value ∨
      e = .unreal (Criterion.keyOf c.property) value)
  /-- The observer is told of the criteria dropped in front, in order, and of nothing else. -/
  notices : q.compile.notices = (droppedCriteria (q.criteria.take i) 0).map .skipped
  /-- So is the trace. -/
  events : q.compile.events = (droppedCriteria (q.criteria.take i) 0).map Drop.event
  /-- The same happens whatever else is asked for, whatever stands behind the criterion, and
  whatever the connectors are. -/
  stable : ∀ q' : Query, q.SameUpTo (i + 1) q' → q'.compile.result = .error e ∧
    q'.compile.notices.map Notice.unlinked = q.compile.notices.map Notice.unlinked

/-! ## Criteria that are errors -/

namespace Criterion

variable {c : Criterion} {value : String} {e : DateError}

theorem class_eq_date_iff {key : String} : PropertyClass.of? key = some .date ↔ key ∈ dateKeys := by
  have hapart : ∀ key ∈ dateKeys, key ∉ booleanKeys ∧ key ∉ numericKeys := by decide
  rw [PropertyClass.of?]
  constructor
  · intro h
    split at h
    · cases h
    split at h
    · cases h
    split at h
    · assumption
    split at h <;> cases h
  · intro h
    obtain ⟨hboolean, hnumeric⟩ := hapart key h
    rw [if_neg hboolean, if_neg hnumeric, if_pos h]

/-- Only a date can be refused with an error. -/
theorem render_eq_error_iff {cls : PropertyClass} {key : String} :
    cls.render key value = .error e ↔ cls = .date ∧ checkDate value key = .error e := by
  cases cls with
  | boolean => simp [PropertyClass.render]
  | numeric => simp [PropertyClass.render]
  | text => simp [PropertyClass.render]
  | date =>
    rw [PropertyClass.render]
    cases checkDate value key with
    | error e' =>
      constructor
      · rintro ⟨⟩
        exact ⟨rfl, rfl⟩
      · rintro ⟨-, ⟨⟩⟩
        rfl
    | ok v => exact ⟨nofun, nofun⟩

/-- What is an error compares a known property with a value. -/
theorem compares_of_fragment_eq_error (h : c.fragment = .error e) :
    ∃ cls value, PropertyClass.of? (keyOf c.property) = some cls ∧ c.Compares value := by
  have hkind : c.kind = .noteProperty := by
    obtain ⟨e', -, hkind⟩ | ⟨reason, hother⟩ | ⟨text, hother, -⟩ | ⟨text, hother, -⟩ :=
      fragment_cases c
    · exact hkind
    all_goals
      rw [hother] at h
      cases h
  cases hcls : PropertyClass.of? (keyOf c.property) with
  | none =>
    obtain ⟨reason, hdropped⟩ := fragment_of_no_class hkind hcls
    rw [hdropped] at h
    cases h
  | some cls =>
    by_contra hnot
    have hnone : ∀ value, ¬c.Compares value := fun value hvalue => hnot ⟨cls, value, rfl, hvalue⟩
    obtain ⟨reason, hdropped⟩ := fragment_of_not_compares hkind hcls hnone
    rw [hdropped] at h
    cases h

/-- The criteria that are errors compare a date with a value that is refused. -/
theorem fragment_eq_error_iff : c.fragment = .error e ↔ ∃ value, c.RefusedDate value e := by
  constructor
  · intro h
    obtain ⟨cls, value, hcls, hcompares⟩ := compares_of_fragment_eq_error h
    obtain ⟨op, -, hfragment⟩ := fragment_of_compares hcls hcompares
    rw [hfragment] at h
    split at h
    next e' hrender =>
      obtain rfl := Except.error.inj h
      obtain ⟨rfl, hrefused⟩ := render_eq_error_iff.mp hrender
      exact ⟨value, hcompares, class_eq_date_iff.mp hcls, hrefused⟩
    · cases h
    · cases h
  · rintro ⟨value, hcompares, hkey, hrefused⟩
    obtain ⟨op, -, hfragment⟩ := fragment_of_compares (class_eq_date_iff.mpr hkey) hcompares
    rw [hfragment, render_eq_error_iff.mpr ⟨rfl, hrefused⟩]

theorem dateError?_eq_some_iff : c.dateError? = some e ↔ ∃ value, c.RefusedDate value e := by
  rw [← fragment_eq_error_iff, dateError?]
  cases c.fragment <;> simp

end Criterion

/-! ## The first of them -/

section
variable {cs : List Criterion} {i : Nat} {c : Criterion} {value : String} {e : DateError}

/-- A list around one of its items. -/
theorem eq_take_append_cons {α : Type} {items : List α} {i : Nat} {x : α}
    (h : items[i]? = some x) : items = items.take i ++ x :: items.drop (i + 1) := by
  obtain ⟨hi, rfl⟩ := List.getElem?_eq_some_iff.mp h
  rw [← List.drop_eq_getElem_cons hi, List.take_append_drop]

/-- Reading stops at the first error. -/
theorem readCriteria_append_cons {front back : List Criterion}
    (hfront : front.findSome? Criterion.dateError? = none) (hc : c.fragment = .error e) :
    readCriteria (front ++ c :: back) = ((readCriteria front).1, some e) := by
  induction front with
  | nil =>
    show readCriteria (c :: back) = ([], some e)
    rw [readCriteria, hc]
  | cons d front ih =>
    obtain ⟨⟨fragment, hd⟩, hfront⟩ := findSome?_dateError?_cons hfront
    rw [List.cons_append, readCriteria, readCriteria, hd]
    dsimp only
    rw [ih hfront]

namespace FirstRefused

theorem findSome?_take (h : FirstRefused cs i c value e) :
    (cs.take i).findSome? Criterion.dateError? = none := by
  rw [List.findSome?_eq_none_iff]
  intro d hd
  obtain ⟨j, hj⟩ := List.mem_iff_getElem?.mp hd
  rw [List.getElem?_take, Option.ite_none_right_eq_some] at hj
  rw [Option.eq_none_iff_forall_ne_some]
  intro e' he'
  obtain ⟨v, hv⟩ := Criterion.dateError?_eq_some_iff.mp he'
  exact h.first j hj.1 d hj.2 v e' hv

/-- Reading the criteria reads those in front, and stops with the error. -/
theorem readCriteria_eq (h : FirstRefused cs i c value e) :
    readCriteria cs = ((readCriteria (cs.take i)).1, some e) := by
  have hfragment := Criterion.fragment_eq_error_iff.mpr ⟨value, h.refused⟩
  calc readCriteria cs
      = readCriteria (cs.take i ++ c :: cs.drop (i + 1)) := by rw [← eq_take_append_cons h.here]
    _ = ((readCriteria (cs.take i)).1, some e) :=
        readCriteria_append_cons h.findSome?_take hfragment

end FirstRefused

/-- When there is an error, some criterion is the first with one. -/
theorem exists_firstRefused (h : cs.findSome? Criterion.dateError? = some e) :
    ∃ i c value, FirstRefused cs i c value e := by
  obtain ⟨front, c, back, rfl, hc, hfront⟩ := List.findSome?_eq_some_iff.mp h
  obtain ⟨value, hrefused⟩ := Criterion.dateError?_eq_some_iff.mp hc
  refine ⟨front.length, c, value, by simp, hrefused, ?_⟩
  intro j hj d hd v e' hv
  rw [List.getElem?_append_left hj] at hd
  have hnone := hfront d (List.mem_of_getElem? hd)
  rw [Criterion.dateError?_eq_some_iff.mpr ⟨v, hv⟩] at hnone
  cases hnone

end

/-! ## Connectors -/

theorem Criterion.fragment_unlinked (c : Criterion) : c.unlinked.fragment = c.fragment :=
  c.fragment_relinked none

theorem droppedCriteria_unlinked (cs : List Criterion) (index : Nat) :
    (droppedCriteria cs index).map (fun d => { d with criterion := d.criterion.unlinked }) =
      droppedCriteria (cs.map Criterion.unlinked) index := by
  induction cs generalizing index with
  | nil => rfl
  | cons c cs ih =>
    have hreason : c.unlinked.dropReason? = c.dropReason? := by
      rw [Criterion.dropReason?, Criterion.dropReason?, c.fragment_unlinked]
    rw [List.map_cons, droppedCriteria_cons, droppedCriteria_cons, List.map_append, ih, hreason]
    cases c.dropReason? <;> rfl

section
variable {q q' : Query} {i : Nat} {c : Criterion} {value : String} {e : DateError}

theorem Query.SameUpTo.getElem? {n : Nat} (h : q.SameUpTo n q') {j : Nat} (hj : j < n) :
    (q.criteria[j]?).map Criterion.unlinked = (q'.criteria[j]?).map Criterion.unlinked := by
  have hget := congrArg (·[j]?) h
  simpa only [List.getElem?_map, List.getElem?_take, if_pos hj] using hget

/-- A refused date is one whatever the connector. -/
theorem Criterion.refusedDate_unlinked_iff :
    c.unlinked.RefusedDate value e ↔ c.RefusedDate value e :=
  ⟨fun ⟨⟨hkind, hnames, hgiven, hblank⟩, hkey, hrefused⟩ =>
      ⟨⟨hkind, hnames, hgiven, hblank⟩, hkey, hrefused⟩,
    fun ⟨⟨hkind, hnames, hgiven, hblank⟩, hkey, hrefused⟩ =>
      ⟨⟨hkind, hnames, hgiven, hblank⟩, hkey, hrefused⟩⟩

theorem Criterion.RefusedDate.of_unlinked {d : Criterion} (h : c.RefusedDate value e)
    (heq : c.unlinked = d.unlinked) : d.RefusedDate value e := by
  rw [← refusedDate_unlinked_iff, ← heq, refusedDate_unlinked_iff]
  exact h

theorem FirstRefused.of_sameUpTo (h : FirstRefused q.criteria i c value e)
    (hsame : q.SameUpTo (i + 1) q') : ∃ d, FirstRefused q'.criteria i d value e := by
  have hhere := hsame.getElem? (Nat.lt_succ_self i)
  rw [h.here] at hhere
  obtain ⟨d, hd, heq⟩ := Option.map_eq_some_iff.mp hhere.symm
  refine ⟨d, hd, h.refused.of_unlinked heq.symm, ?_⟩
  intro j hj d' hd' v e' hv
  have hfront := hsame.getElem? (Nat.lt_succ_of_lt hj)
  rw [hd'] at hfront
  obtain ⟨c', hc', heq'⟩ := Option.map_eq_some_iff.mp hfront
  exact h.first j hj c' hc' v e' (hv.of_unlinked heq'.symm)

end

/-! ## Compilations that fail -/

/-- An error of the check names the property and the value. -/
theorem checkDate_names {value property : String} {e : DateError}
    (h : checkDate value property = .error e) :
    e = .badShape property value ∨ e = .unreal property value := by
  unfold checkDate at h
  split at h
  · exact .inl (Except.error.inj h).symm
  split at h
  · cases h
  · exact .inr (Except.error.inj h).symm

section
variable {q : Query} {i : Nat} {c : Criterion} {value : String} {e : DateError}

/-- Of a compilation that fails only the drops are reported. -/
theorem Compilation.notices_of_error {compilation : Compilation}
    (h : compilation.result = .error e) :
    compilation.notices = compilation.drops.map .skipped ∧
      compilation.events = compilation.drops.map Drop.event := by
  rw [notices, events_eq, h]
  exact ⟨List.append_nil _, List.append_nil _⟩

theorem FirstRefused.compile_eq (h : FirstRefused q.criteria i c value e) :
    q.compile = ⟨droppedCriteria (q.criteria.take i) 0, .error e⟩ := by
  rw [Query.compile, h.readCriteria_eq]
  dsimp only
  rw [dropsFrom_readCriteria h.findSome?_take]

theorem FirstRefused.failsAt (h : FirstRefused q.criteria i c value e) :
    q.FailsAt i c value e := by
  have hcompile (q : Query) (c : Criterion) (h : FirstRefused q.criteria i c value e) :
      q.compile.result = .error e ∧
        q.compile.notices = (droppedCriteria (q.criteria.take i) 0).map .skipped ∧
        q.compile.events = (droppedCriteria (q.criteria.take i) 0).map Drop.event := by
    have heq := h.compile_eq
    have hresult : q.compile.result = .error e := by rw [heq]
    have hnotices := Compilation.notices_of_error hresult
    rw [heq] at hnotices
    rw [heq]
    exact ⟨rfl, hnotices⟩
  obtain ⟨hresult, hnotices, hevents⟩ := hcompile q c h
  refine ⟨⟨hresult, checkDate_names h.refused.refused⟩, hnotices, hevents, ?_⟩
  intro q' hsame
  obtain ⟨d, hd⟩ := h.of_sameUpTo hsame
  obtain ⟨hresult', hnotices', -⟩ := hcompile q' d hd
  refine ⟨hresult', ?_⟩
  have hunlinked (cs : List Criterion) :
      ((droppedCriteria cs 0).map Notice.skipped).map Notice.unlinked =
        (droppedCriteria (cs.map Criterion.unlinked) 0).map Notice.skipped := by
    rw [← droppedCriteria_unlinked, List.map_map, List.map_map]
    rfl
  have hfront : (q'.criteria.take i).map Criterion.unlinked =
      (q.criteria.take i).map Criterion.unlinked := by
    have htake := congrArg (List.take i) hsame
    simpa only [List.map_take, List.take_take, Nat.min_eq_left (Nat.le_succ i)] using htake.symm
  rw [hnotices, hnotices', hunlinked, hunlinked, hfront]

end

/-- **A compilation fails at the first refused date.** It fails exactly when some criterion compares
a date with a value that is refused; the first such criterion gives the error, the observer is told
of what is dropped in front of it and of nothing else, and nothing but the criteria up to it has a
say, not even their connectors. A criterion on a date that compares nothing, because its operator is
unknown or asks for presence or because it has no value, is dropped. -/
theorem compile_fails_at_first :
    (∀ (q : Query) (e : DateError), q.compile.result = .error e ↔
        ∃ i c value, FirstRefused q.criteria i c value e) ∧
      (∀ (q : Query) (i : Nat) (c : Criterion) (value : String) (e : DateError),
        FirstRefused q.criteria i c value e → q.FailsAt i c value e) ∧
      ∀ c : Criterion, c.kind = .noteProperty →
        Criterion.keyOf c.property ∈
          ["dateCreated", "dateModified", "utcDateCreated", "utcDateModified"] →
        (¬c.NamesComparison ∨ ∀ value, c.value = some value → Text.blank value = true) →
        ∃ reason, c.fragment = .ok (.dropped reason) := by
  refine ⟨fun q e => ⟨fun h => ?_, fun ⟨i, c, value, h⟩ => h.failsAt.error.1⟩,
    fun q i c value e h => h.failsAt, fun c hkind hkey hnot => ?_⟩
  · apply exists_firstRefused
    rw [compile_result] at h
    split at h
    next e' hfound => rw [hfound, Except.error.inj h]
    · cases h
  · refine Criterion.fragment_of_not_compares hkind (Criterion.class_eq_date_iff.mpr hkey) ?_
    intro value hcompares
    obtain hnames | hblank := hnot
    · exact hnames hcompares.names
    · have hnot_blank := hcompares.not_blank
      rw [hblank value hcompares.given] at hnot_blank
      cases hnot_blank

/-- A criterion that asks for the presence of a date, with a value that is none. -/
def datedCriterion : Criterion where
  property := "dateCreated"
  kind := .noteProperty
  op := some "exists"
  value := some "yesterday"
  connector := some .or

/-- A query with two refused dates, and with criteria on dates that compare nothing. -/
def diaryQuery : Query where
  text := some "diary"
  criteria :=
    [datedCriterion,
     { property := "dateModified", kind := .noteProperty, op := some ">=", value := some " " },
     { property := " note.dateCreated ", kind := .noteProperty, op := some " REGEX ",
       value := some "2024-02-30" },
     { property := "dateModified", kind := .noteProperty, op := some "<", value := some "TODAY-7" }]

theorem compile_fails_at_first_diary :
    (∃ c, FirstRefused diaryQuery.criteria 2 c "2024-02-30" (.unreal "dateCreated" "2024-02-30") ∧
        diaryQuery.FailsAt 2 c "2024-02-30" (.unreal "dateCreated" "2024-02-30")) ∧
      ∃ reason, datedCriterion.fragment = .ok (.dropped reason) := by
  have hfront : (diaryQuery.criteria.take 2).findSome? Criterion.dateError? = none := rfl
  have hfirst : FirstRefused diaryQuery.criteria 2 _ "2024-02-30"
      (.unreal "dateCreated" "2024-02-30") := {
    here := rfl
    refused := ⟨⟨rfl, ⟨" REGEX ", rfl, by decide⟩, rfl, rfl⟩, by decide, rfl⟩
    first := by
      intro j hj d hd v e hv
      have hmem : d ∈ diaryQuery.criteria.take 2 :=
        List.mem_of_getElem? (by rw [List.getElem?_take, if_pos hj]; exact hd)
      have hnone := List.findSome?_eq_none_iff.mp hfront d hmem
      rw [Criterion.dateError?_eq_some_iff.mpr ⟨v, hv⟩] at hnone
      cases hnone }
  refine ⟨⟨_, hfirst, compile_fails_at_first.2.1 _ _ _ _ _ hfirst⟩,
    compile_fails_at_first.2.2 datedCriterion rfl (by decide) (.inl ?_)⟩
  rintro ⟨name, hname, hmem⟩
  obtain rfl := Option.some.inj hname
  revert hmem
  decide

end NoteTools
