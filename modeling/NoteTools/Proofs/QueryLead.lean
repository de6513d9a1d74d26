import NoteTools.Proofs.LineParts

/-!
# What the line of a query leads with

Whether a query has free text is decided from the query alone, and once more while its line is put
together. Both agree: the line leads with the free texts exactly when the query says that it has
some, and with the condition that always holds when it has none but something else to ask for.

Main definitions:

* `Query.conditions`: the clauses of a query and the condition of its scope, as they stand in the
  line;
* `Query.lead`: what the line starts with;
* `Query.Led`: the line of a query, as its free text says.

Results:

* `Query.conditions_eq_nil_iff`: when there is no condition;
* `Query.line_cases`, `Query.toList_line`: an empty line; the lead, the conditions and the limit;
* `Query.exists_toList_line`: a line without free text;
* `compiled_line_led`: every line.
-/

namespace NoteTools

open Grammar

/-! ## Specification -/

namespace Query

/-- The conditions of a line: the clauses of the criteria, and the condition of the scope. -/
def conditions (q : Query) : List String :=
  clauseTexts (q.criteria.filterMap Criterion.linked?) ++ (q.scope.bind Scope.condition?).toList

/-- What stands behind the lead of a line: the conditions, each behind a space, and the limit. -/
def tail (q : Query) : List Char :=
  spaced q.conditions ++ (limitText (q.limit.map fun n => n.value.toNat)).toList

/-- What the line of a query starts with: its free texts, or the condition that always holds. -/
def lead (q : Query) : String :=
  if q.hasFreeText then " ".intercalate q.texts else baseCondition

/-- The line of a query agrees with what the query says of its free text. -/
structure Led (q : Query) (line : String) : Prop where
  /-- The line is empty exactly when there is no free text, no criterion becomes a condition and no
  scope has a reference. The limit has no say. -/
  empty_iff : line = "" ↔ q.hasFreeText = false ∧
    (∀ c ∈ q.criteria, ∀ text, c.fragment ≠ .ok (.condition text)) ∧
    ∀ s ∈ q.scope, Text.blank s.reference = true
  /-- With free text, the line starts with the texts that are not blank, the query's own first, with
  single spaces between them. Together they are not blank. -/
  freeText : q.hasFreeText = true → Text.blank (" ".intercalate q.texts) = false ∧
    line.toList = (" ".intercalate q.texts).toList ++ q.tail
  /-- Without free text, a line that is not empty starts with the condition that always holds, a
  space and a condition of the query. -/
  structured : q.hasFreeText = false → line ≠ "" → ∃ first others,
    q.conditions = first :: others ∧ first ≠ "" ∧
      line.toList = baseCondition.toList ++ (' ' :: first.toList ++
        (spaced others ++ (limitText (q.limit.map fun n => n.value.toNat)).toList))
  /-- A line that is not empty ends with the limit. -/
  limit : line ≠ "" → ∀ n ∈ q.limit, ∃ body, line = body ++ " limit " ++ toString n.value.toNat

end Query

/-! ## What decides on the line -/

theorem Criterion.condition?_eq_none_iff {c : Criterion} :
    c.condition? = none ↔ ∀ text, c.fragment ≠ .ok (.condition text) := by
  constructor
  · intro h text hfragment
    rw [condition?, hfragment] at h
    cases h
  · intro h
    rw [Option.eq_none_iff_forall_ne_some]
    exact fun text htext => h text (fragment_of_condition? htext)

theorem Scope.condition?_eq_none_iff {s : Scope} :
    s.condition? = none ↔ Text.blank s.reference = true := by
  rw [condition?, ← Text.trim_eq_empty_iff]
  simp

namespace Query

variable {q : Query} {line : String}

theorem hasFreeText_eq_false_iff : q.hasFreeText = false ↔ q.texts = [] := by
  rw [← Bool.not_eq_true, hasFreeText_iff, not_not]

theorem lead_eq (q : Query) :
    q.lead = if q.texts = [] then baseCondition else " ".intercalate q.texts := by
  rw [lead]
  by_cases h : q.texts = []
  · rw [if_pos h, hasFreeText_eq_false_iff.mpr h]
    rfl
  · rw [if_neg h, if_pos (hasFreeText_iff.mpr h)]

/-- Free texts are not blank together. -/
theorem not_blank_texts (h : q.hasFreeText = true) :
    Text.blank (" ".intercalate q.texts) = false :=
  blank_intercalate (hasFreeText_iff.mp h) (fun _ ht => not_blank_of_mem_texts ht) " "

theorem lead_ne_empty (q : Query) : q.lead ≠ "" := by
  rw [lead]
  split
  · next h =>
    intro hempty
    have hblank := not_blank_texts h
    rw [hempty] at hblank
    cases hblank
  · decide

/-- There is no condition exactly when no criterion becomes one and the scope has no reference. -/
theorem conditions_eq_nil_iff : q.conditions = [] ↔
    (∀ c ∈ q.criteria, c.condition? = none) ∧ ∀ s ∈ q.scope, s.condition? = none := by
  rw [conditions, List.append_eq_nil_iff, clauseTexts_eq_nil_iff, List.filterMap_eq_nil_iff,
    Option.toList_eq_nil_iff, Option.bind_eq_none_iff]
  rfl

theorem toList_body (q : Query) : q.body.toList = q.lead.toList ++ spaced q.conditions := by
  rw [lead_eq, body, toList_intercalate_cons]
  rfl

/-- **The line of a query** is empty when there is neither free text nor a condition; otherwise it
is its body and the limit. -/
theorem line_cases (h : q.compile.result = .ok line) :
    (line = "" ↔ q.hasFreeText = false ∧ q.conditions = []) ∧
      (line ≠ "" → line = q.body ++ limitText (q.limit.map fun n => n.value.toNat)) := by
  have hparts : q.parts = [] ↔ q.hasFreeText = false ∧ q.conditions = [] := by
    rw [parts_eq_nil_iff, hasFreeText_eq_false_iff]
    rfl
  have hline (hne : q.parts ≠ []) := ((composed_line h).2 hne).2
  rw [← hparts]
  refine ⟨⟨fun hempty => ?_, (composed_line h).1⟩, fun hne => hline fun hnil => ?_⟩
  · by_contra hne
    have hbody : q.body = "" := (String.append_eq_empty_iff.mp (hempty ▸ (hline hne).symm)).1
    have hlead := q.toList_body
    rw [hbody] at hlead
    exact q.lead_ne_empty (String.toList_inj.mp (List.append_eq_nil_iff.mp hlead.symm).1)
  · exact hne ((composed_line h).1 hnil)

/-- Behind the lead of a line stands its tail. -/
theorem toList_line (h : q.compile.result = .ok line) (hne : line ≠ "") :
    line.toList = q.lead.toList ++ q.tail := by
  rw [(line_cases h).2 hne, String.toList_append, toList_body, List.append_assoc]
  rfl

/-- Without free text, a condition stands behind the one that always holds. -/
theorem exists_toList_line (h : q.compile.result = .ok line) (hfree : q.hasFreeText = false)
    (hne : line ≠ "") : ∃ first others, q.conditions = first :: others ∧ first ≠ "" ∧
      line.toList = baseCondition.toList ++ (' ' :: first.toList ++
        (spaced others ++ (limitText (q.limit.map fun n => n.value.toNat)).toList)) := by
  have hconditions : q.conditions ≠ [] := fun hnil => hne ((line_cases h).1.mpr ⟨hfree, hnil⟩)
  obtain ⟨first, others, hcons⟩ := List.exists_cons_of_ne_nil hconditions
  refine ⟨first, others, hcons, ?_, ?_⟩
  · rintro rfl
    exact q.empty_notMem_conditions (show "" ∈ q.conditions from hcons ▸ List.mem_cons_self)
  · rw [toList_line h hne, lead, hfree, tail, hcons]
    simp [spaced]

end Query

/-! ## Every line -/

/-- **The lead of a line agrees with the query.** A query that compiles has an empty line exactly
when it asks for nothing. Its line leads with the free texts exactly when the query has free text;
without free text it leads with the condition that always holds, and a condition of the query
follows. -/
theorem compiled_line_led (q : Query) (line : String) (h : q.compile.result = .ok line) :
    q.Led line := by
  obtain ⟨hempty, hline⟩ := Query.line_cases h
  refine ⟨?_, fun hfree => ⟨Query.not_blank_texts hfree, ?_⟩, Query.exists_toList_line h, ?_⟩
  · simp only [hempty, Query.conditions_eq_nil_iff, Criterion.condition?_eq_none_iff,
      Scope.condition?_eq_none_iff]
  · have hne : line ≠ "" := by
      rw [ne_eq, hempty, hfree]
      simp
    rw [Query.toList_line h hne, Query.lead, if_pos hfree]
  · intro hne n hn
    refine ⟨q.body, ?_⟩
    rw [hline hne, Option.mem_def.mp hn]
    exact String.append_assoc.symm

/-- A query whose text, whose first free text and whose scope are blank, in one way or another; the
second free text has a blank value and falls back to its property. -/
def hushQuery : Query where
  text := some "\u3000 "
  criteria :=
    [{ property := "\u00A0", kind := .freeText, value := some " " },
     { property := "tide", kind := .freeText, value := some "\u2003" },
     { property := "sea", kind := .label }]
  scope := some ⟨.children, "\u2028"⟩
  limit := Limit.of? 3

/-- That query without its free text. -/
def muteQuery : Query where
  text := hushQuery.text
  criteria := hushQuery.criteria.filter fun c => c.kind ≠ .freeText
  scope := hushQuery.scope
  limit := hushQuery.limit

theorem compiled_line_led_hush :
    hushQuery.compile.result = .ok "tide #sea limit 3" ∧ hushQuery.Led "tide #sea limit 3" ∧
      muteQuery.compile.result = .ok "note.noteId != '' #sea limit 3" ∧
      muteQuery.Led "note.noteId != '' #sea limit 3" := by
  have hhush : hushQuery.compile.result = .ok "tide #sea limit 3" := by decide +kernel
  have hmute : muteQuery.compile.result = .ok "note.noteId != '' #sea limit 3" := by decide +kernel
  exact ⟨hhush, compiled_line_led hushQuery _ hhush, hmute, compiled_line_led muteQuery _ hmute⟩

end NoteTools
