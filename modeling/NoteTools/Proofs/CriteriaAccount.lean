import NoteTools.Proofs.LineParts
import NoteTools.Proofs.SearchRun

/-!
# Every criterion is accounted for

When a query compiles, each of its criteria gives a condition to the line, or gives free text to it,
or is dropped and reported, and no criterion does two of these. The answer to a search has a warning
for each report.

Main definitions:

* `ExactlyOne`: exactly one of three statements holds;
* `Query.Accounted`: what becomes of the criteria of a query, and what its line is made of;
* `SearchRequest.Warned`: what the answer to a search says of its criteria.

Results:

* `Query.accounted_of_compiled`: the criteria of a query that compiles;
* `Service.warned_of_ok`: the answer to a search;
* `criteria_accounted`: both together.
-/

namespace NoteTools

/-- Exactly one of three statements holds. -/
def ExactlyOne (a b c : Prop) : Prop :=
  (a ∧ ¬b ∧ ¬c) ∨ (¬a ∧ b ∧ ¬c) ∨ (¬a ∧ ¬b ∧ c)

/-! ## What becomes of criteria -/

/-- What becomes of the criteria of a query that compiles to a line, and what the line is made
of. -/
structure Query.Accounted (q : Query) (line : String) : Prop where
  /-- Each criterion gives a condition that is not empty, or free text that is not blank, or it is
  dropped: one of the three. -/
  classes : ∀ i < q.criteria.length, ExactlyOne (∃ t, .condition i t ∈ q.parts ∧ t ≠ "")
    (∃ t, .freeText i t ∈ q.parts ∧ Text.blank t = false) (∃ d ∈ q.compile.drops, d.index = i)
  /-- A condition is what its criterion becomes. -/
  conditions : ∀ i t, .condition i t ∈ q.parts →
    ∃ c, q.criteria[i]? = some c ∧ c.fragment = .ok (.condition t)
  /-- Free text is what its criterion becomes. -/
  freeTexts : ∀ i t, .freeText i t ∈ q.parts →
    ∃ c, q.criteria[i]? = some c ∧ c.fragment = .ok (.freeText t)
  /-- The text of the query is a part when it is not blank. -/
  text : ∀ t, .text t ∈ q.parts ↔ q.text = some t ∧ Text.blank t = false
  /-- The condition of the scope is a part. -/
  scope : ∀ t, .scope t ∈ q.parts ↔ ∃ s, q.scope = some s ∧ s.condition? = some t
  /-- Parts come in the order of their kinds, and of their criteria. -/
  partsOrder : q.parts.Pairwise Part.Before
  /-- The line is made of the parts, with the limit behind them. -/
  composed : q.parts ≠ [] → ∃ body, Composed body (q.parts.map Part.string) ∧
    line = body ++ limitText (q.limit.map fun n => n.value.toNat)
  /-- The line is empty when there are no parts. -/
  nothing : q.parts = [] → line = ""
  /-- What is dropped is a criterion of the query, with the reason that it has. -/
  drops : ∀ d ∈ q.compile.drops,
    q.criteria[d.index]? = some d.criterion ∧ d.criterion.fragment = .ok (.dropped d.reason)
  /-- Drops come in the order of their indices. -/
  dropsOrder : q.compile.drops.Pairwise fun d d' => d.index < d'.index
  /-- Each drop is reported, in order, and then the line. -/
  reports : q.compile.events = q.compile.drops.map Drop.event ++ [compiledEvent line]

theorem droppedCriteria_eq_marked (cs : List Criterion) :
    droppedCriteria cs 0 = marked Criterion.dropReason? Drop.mk cs := rfl

theorem Criterion.fragment_of_dropReason? {c : Criterion} {reason : DropReason}
    (h : c.dropReason? = some reason) : c.fragment = .ok (.dropped reason) := by
  rw [dropReason?] at h
  split at h
  · next reason' heq =>
    obtain rfl := Option.some.inj h
    exact heq
  · cases h

/-- A criterion without an invalid date becomes a condition, or free text, or nothing. -/
theorem Criterion.exactlyOne_of_fragment {c : Criterion} {fragment : Fragment}
    (h : c.fragment = .ok fragment) : ExactlyOne (∃ t, c.condition? = some t ∧ t ≠ "")
      (∃ t, c.freeText? = some t ∧ Text.blank t = false)
      (∃ reason, c.dropReason? = some reason) := by
  have hfree (hnot : ∀ t, fragment ≠ .freeText t) : c.freeText? = none := by
    refine c.freeText?_eq_none fun t ht => hnot t ?_
    rw [h] at ht
    exact Except.ok.inj ht
  cases fragment with
  | condition t =>
    have hcondition : c.condition? = some t := by rw [condition?, h]
    have hdrop : c.dropReason? = none := by rw [dropReason?, h]
    refine .inl ⟨⟨t, hcondition, condition_ne_empty hcondition⟩, ?_, ?_⟩
    · simp [hfree (by simp)]
    · simp [hdrop]
  | freeText t =>
    have hcondition : c.condition? = none := by rw [condition?, h]
    have hdrop : c.dropReason? = none := by rw [dropReason?, h]
    have ht : c.freeText? = some t := freeText?_of_fragment h
    refine .inr (.inl ⟨?_, ⟨t, ht, not_blank_of_freeText? ht⟩, ?_⟩)
    · simp [hcondition]
    · simp [hdrop]
  | dropped reason =>
    have hcondition : c.condition? = none := by rw [condition?, h]
    have hdrop : c.dropReason? = some reason := by rw [dropReason?, h]
    refine .inr (.inr ⟨?_, ?_, reason, hdrop⟩)
    · simp [hcondition]
    · simp [hfree (by simp)]

namespace Query

variable {q : Query} {line : String}

theorem exists_fragment (h : q.compile.result = .ok line) {c : Criterion} (hc : c ∈ q.criteria) :
    ∃ fragment, c.fragment = .ok fragment := by
  have hdate := List.findSome?_eq_none_iff.mp (dateError?_eq_none h) c hc
  cases hfragment : c.fragment with
  | error e => simp [Criterion.dateError?, hfragment] at hdate
  | ok fragment => exact ⟨fragment, rfl⟩

/-- A criterion that is dropped, by its index. -/
theorem exists_drop_iff (h : q.compile.result = .ok line) {i : Nat} :
    (∃ d ∈ q.compile.drops, d.index = i) ↔
      ∃ c reason, q.criteria[i]? = some c ∧ c.dropReason? = some reason := by
  simp only [compile_drops h, droppedCriteria_eq_marked, mem_marked_iff]
  constructor
  · rintro ⟨d, ⟨i, c, reason, hc, hreason, rfl⟩, rfl⟩
    exact ⟨c, reason, hc, hreason⟩
  · rintro ⟨c, reason, hc, hreason⟩
    exact ⟨_, ⟨i, c, reason, hc, hreason, rfl⟩, rfl⟩

/-- Each criterion falls in one of three classes. -/
theorem exactlyOne_class (h : q.compile.result = .ok line) {i : Nat} (hi : i < q.criteria.length) :
    ExactlyOne (∃ t, .condition i t ∈ q.parts ∧ t ≠ "")
      (∃ t, .freeText i t ∈ q.parts ∧ Text.blank t = false)
      (∃ d ∈ q.compile.drops, d.index = i) := by
  have hget : q.criteria[i]? = some q.criteria[i] := List.getElem?_eq_getElem hi
  have hcondition : (∃ t, .condition i t ∈ q.parts ∧ t ≠ "") ↔
      ∃ t, q.criteria[i].condition? = some t ∧ t ≠ "" := by
    simp [condition_mem_parts_iff, hget]
  have hfree : (∃ t, .freeText i t ∈ q.parts ∧ Text.blank t = false) ↔
      ∃ t, q.criteria[i].freeText? = some t ∧ Text.blank t = false := by
    simp [freeText_mem_parts_iff, hget]
  have hdrop : (∃ d ∈ q.compile.drops, d.index = i) ↔
      ∃ reason, q.criteria[i].dropReason? = some reason := by
    simp [exists_drop_iff h, hget]
  rw [hcondition, hfree, hdrop]
  obtain ⟨fragment, hfragment⟩ := exists_fragment h (List.getElem_mem hi)
  exact Criterion.exactlyOne_of_fragment hfragment

/-- The criteria of a query that compiles are accounted for. -/
theorem accounted_of_compiled (h : q.compile.result = .ok line) : q.Accounted line where
  classes _ hi := exactlyOne_class h hi
  conditions i t ht := by
    obtain ⟨c, hc, htext⟩ := condition_mem_parts_iff.mp ht
    exact ⟨c, hc, Criterion.fragment_of_condition? htext⟩
  freeTexts i t ht := by
    obtain ⟨c, hc, htext⟩ := freeText_mem_parts_iff.mp ht
    exact ⟨c, hc, Criterion.fragment_of_freeText? htext⟩
  text _ := text_mem_parts_iff
  scope _ := scope_mem_parts_iff
  partsOrder := q.parts_pairwise
  composed hne := ⟨q.body, (composed_line h).2 hne⟩
  nothing hnil := (composed_line h).1 hnil
  drops d hd := by
    rw [compile_drops h, droppedCriteria_eq_marked, mem_marked_iff] at hd
    obtain ⟨i, c, reason, hc, hreason, rfl⟩ := hd
    exact ⟨hc, Criterion.fragment_of_dropReason? hreason⟩
  dropsOrder := by
    rw [compile_drops h, droppedCriteria_eq_marked]
    exact marked_pairwise fun _ _ _ _ _ _ hlt => hlt
  reports := by rw [Compilation.events_eq, h]

end Query

/-! ## Warnings -/

/-- The answer to a search has the line of its query, and a warning for each criterion that is
dropped from it, in order. -/
def SearchRequest.Warned (r : SearchRequest) (response : SearchResponse) : Prop :=
  r.query.compile.result = .ok response.query ∧
    response.warnings = r.query.compile.drops.map fun d =>
      "criteria[" ++ toString d.index ++ "] (" ++ d.criterion.property ++ ") was ignored: "
        ++ d.reason.message ++ "."

namespace Service

variable {s : Service} {r : SearchRequest} {t : Session} {response : SearchResponse}

/-- A search that succeeds has a plan, and answers by it. -/
theorem exists_plan_of_ok (h : (Action.run (s.search r) t).1 = .ok response) :
    ∃ p warnings notes, s.plan r = .ok (p, warnings) ∧ response = p.answer warnings notes := by
  obtain ⟨e, -, houtcome, -⟩ | ⟨p, warnings, hplan, hsteps⟩ := s.search_cases r t
  · rw [houtcome] at h
    cases h
  obtain ⟨error, -, houtcome, -⟩ | ⟨x, next, -, houtcome, -⟩ := hsteps
  · rw [houtcome] at h
    cases h
  · rw [houtcome] at h
    cases hnotes : foundNotes x.reply with
    | error e =>
      rw [hnotes] at h
      cases h
    | ok notes =>
      rw [hnotes] at h
      exact ⟨p, warnings, notes, hplan, (Except.ok.inj h).symm⟩

theorem warned_of_plan {p : SearchParams} {warnings : List String}
    (h : s.plan r = .ok (p, warnings)) (notes : List Note) :
    r.Warned (p.answer warnings notes) := by
  obtain ⟨line, hline, -, hasked⟩ := plan_eq_ok h
  obtain ⟨rfl, rfl⟩ := Prod.mk.inj hasked
  exact ⟨hline, rfl⟩

/-- The answer to a search has a warning for each dropped criterion. -/
theorem warned_of_ok (h : (Action.run (s.search r) t).1 = .ok response) : r.Warned response := by
  obtain ⟨p, warnings, notes, hplan, rfl⟩ := exists_plan_of_ok h
  exact warned_of_plan hplan notes

end Service

/-- **Every criterion is accounted for.** Of a query that compiles, each criterion stands in the
line or is dropped and reported; the answer to a search has a warning for each report. -/
theorem criteria_accounted :
    (∀ (q : Query) (line : String), q.compile.result = .ok line → q.Accounted line) ∧
      ∀ (s : Service) (r : SearchRequest) (t : Session) (response : SearchResponse),
        (Action.run (s.search r) t).1 = .ok response → r.Warned response :=
  ⟨fun _ _ h => Query.accounted_of_compiled h, fun _ _ _ _ h => Service.warned_of_ok h⟩

/-- The query for books or films compiles, and the search for the sea succeeds. -/
theorem criteria_accounted_shelf_tide :
    shelfQuery.compile.result = .ok "dark ring ~(#book OR #film)" ∧
      shelfQuery.Accounted "dark ring ~(#book OR #film)" ∧
      ∃ response,
        (Action.run (tideService.search tideSearch) (.start ⟨[tideReply], none⟩)).1 = .ok response ∧
          tideSearch.Warned response := by
  have hline : shelfQuery.compile.result = .ok "dark ring ~(#book OR #film)" := rfl
  have hwarnings : ((Action.run (tideService.search tideSearch) (.start ⟨[tideReply], none⟩)).1.map
      SearchResponse.warnings) = .ok ["criteria[0] ( ) was ignored: property is empty."] := by
    decide +kernel
  refine ⟨hline, criteria_accounted.1 shelfQuery _ hline, ?_⟩
  cases hrun : (Action.run (tideService.search tideSearch) (.start ⟨[tideReply], none⟩)).1 with
  | error e =>
    rw [hrun] at hwarnings
    cases hwarnings
  | ok response => exact ⟨response, rfl, criteria_accounted.2 _ _ _ _ hrun⟩

end NoteTools
