import NoteTools.Proofs.NormalForm
import NoteTools.Proofs.QueryReading

/-!
# The parts of a line

The line of a query holds its parts in order and apart from each other: its text, the free text of
its criteria, their conditions, and the condition of its scope. Between the parts stands only what
the grammar needs, and behind them the limit.

Main definitions:

* `marked`: what the items of a list give, by their index;
* `Part`, `Query.parts`: what a query gives to its line;
* `Glue`, `Segment`, `Composed`: a text that is made of parts, with only glue between them.

Results:

* `mem_marked_iff`, `marked_pairwise`, `map_marked`: marked items are those of the list, in order;
* `Query.parts_pairwise`: parts come in the order of their kinds, and of their criteria;
* `Composed.intercalate`, `Clause.composed`: texts side by side, and clauses;
* `Query.composed_line`: the line of a query that compiles.
-/

namespace NoteTools

/-! ## Items by their index -/

section
variable {α β γ : Type}

/-- What the items of a list give, marked with the index of the item. -/
def marked (f : α → Option β) (mark : Nat → α → β → γ) (items : List α) : List γ :=
  items.zipIdx.filterMap fun (a, i) => (f a).map (mark i a)

variable {f : α → Option β} {mark : Nat → α → β → γ} {items : List α}

theorem mem_marked_iff {x : γ} :
    x ∈ marked f mark items ↔ ∃ i a b, items[i]? = some a ∧ f a = some b ∧ mark i a b = x := by
  simp only [marked, List.mem_filterMap, Prod.exists, List.mem_zipIdx_iff_getElem?,
    Option.map_eq_some_iff]
  constructor
  · rintro ⟨a, i, ha, b, hb, hx⟩
    exact ⟨i, a, b, ha, hb, hx⟩
  · rintro ⟨i, a, b, ha, hb, hx⟩
    exact ⟨a, i, ha, b, hb, hx⟩

/-- Marks come in the order of the indices. -/
theorem marked_pairwise {R : γ → γ → Prop}
    (h : ∀ i a b j a' b', i < j → R (mark i a b) (mark j a' b')) :
    (marked f mark items).Pairwise R := by
  have hindices : (items.zipIdx.map Prod.snd).Pairwise (· < ·) := by
    rw [List.zipIdx_map_snd]
    exact List.pairwise_lt_range' 1
  rw [marked, List.pairwise_filterMap]
  refine (List.pairwise_map.mp hindices).imp fun {x y} hlt => ?_
  intro c hc d hd
  obtain ⟨b, -, rfl⟩ := Option.map_eq_some_iff.mp hc
  obtain ⟨b', -, rfl⟩ := Option.map_eq_some_iff.mp hd
  exact h _ _ _ _ _ _ hlt

/-- Without their marks, the marked items are what the items give. -/
theorem map_marked {g : γ → β} (h : ∀ i a b, g (mark i a b) = b) :
    (marked f mark items).map g = items.filterMap f := by
  have hunmark (x : α × Nat) : ((f x.1).map (mark x.2 x.1)).map g = f x.1 := by
    rw [Option.map_map, show g ∘ mark x.2 x.1 = id from funext fun b => h _ _ b, Option.map_id, id]
  rw [marked, List.map_filterMap]
  simp only [hunmark]
  show items.zipIdx.filterMap (f ∘ Prod.fst) = _
  rw [← List.filterMap_map, List.zipIdx_map_fst]

end

/-! ## Parts -/

/-- What a query gives to its line. -/
inductive Part where
  /-- The text of the query. -/
  | text (t : String)
  /-- The free text of a criterion, by its index. -/
  | freeText (index : Nat) (t : String)
  /-- The condition of a criterion, by its index. -/
  | condition (index : Nat) (t : String)
  /-- The condition of the scope. -/
  | scope (t : String)
  deriving DecidableEq, Repr

namespace Part

/-- The text of a part. -/
def string : Part → String
  | .text t => t
  | .freeText _ t => t
  | .condition _ t => t
  | .scope t => t

/-- The place of the kind of a part among the kinds. -/
def rank : Part → Nat
  | .text _ => 0
  | .freeText _ _ => 1
  | .condition _ _ => 2
  | .scope _ => 3

/-- The index of the criterion of a part, if it has one. -/
def index : Part → Nat
  | .freeText i _ => i
  | .condition i _ => i
  | _ => 0

/-- A part has its place in front of another one: by its kind, and then by its criterion. -/
def Before (p p' : Part) : Prop :=
  p.rank < p'.rank ∨ p.rank = p'.rank ∧ p.index < p'.index

end Part

namespace Query

/-- The parts of the line of a query, in order. -/
def parts (q : Query) : List Part :=
  ((q.text.filter fun t => !Text.blank t).map Part.text).toList
    ++ marked Criterion.freeText? (fun i _ => Part.freeText i) q.criteria
    ++ marked Criterion.condition? (fun i _ => Part.condition i) q.criteria
    ++ ((q.scope.bind Scope.condition?).map Part.scope).toList

variable {q : Query}

theorem text_mem_parts_iff {t : String} :
    .text t ∈ q.parts ↔ q.text = some t ∧ Text.blank t = false := by
  simp [parts, mem_marked_iff, Option.filter_eq_some_iff, -Option.map_bind]

theorem freeText_mem_parts_iff {i : Nat} {t : String} :
    .freeText i t ∈ q.parts ↔ ∃ c, q.criteria[i]? = some c ∧ c.freeText? = some t := by
  simp [parts, mem_marked_iff, -Option.map_bind]

theorem condition_mem_parts_iff {i : Nat} {t : String} :
    .condition i t ∈ q.parts ↔ ∃ c, q.criteria[i]? = some c ∧ c.condition? = some t := by
  simp [parts, mem_marked_iff, -Option.map_bind]

theorem scope_mem_parts_iff {t : String} :
    .scope t ∈ q.parts ↔ ∃ s, q.scope = some s ∧ s.condition? = some t := by
  simp [parts, mem_marked_iff, Option.bind_eq_some_iff, -Option.map_bind]

/-- Parts come in the order of their kinds, and of their criteria. -/
theorem parts_pairwise (q : Query) : q.parts.Pairwise Part.Before := by
  have hsingle (o : Option Part) : o.toList.Pairwise Part.Before := by
    cases o <;> simp
  have hfree : (marked Criterion.freeText? (fun i _ => Part.freeText i) q.criteria).Pairwise
      Part.Before := marked_pairwise fun _ _ _ _ _ _ hlt => .inr ⟨rfl, hlt⟩
  have hcondition : (marked Criterion.condition? (fun i _ => Part.condition i) q.criteria).Pairwise
      Part.Before := marked_pairwise fun _ _ _ _ _ _ hlt => .inr ⟨rfl, hlt⟩
  have hrank {p p' : Part} (h : p.rank < p'.rank) : p.Before p' := .inl h
  simp only [parts, List.pairwise_append, hsingle, hfree, hcondition, true_and, List.mem_append,
    Option.mem_toList, Option.map_eq_some_iff, mem_marked_iff]
  refine ⟨⟨?_, ?_⟩, ?_⟩
  · rintro _ ⟨t, -, rfl⟩ _ ⟨i, c, t', -, -, rfl⟩
    exact hrank Nat.zero_lt_one
  · rintro _ (⟨t, -, rfl⟩ | ⟨i, c, t, -, -, rfl⟩) _ ⟨j, c', t', -, -, rfl⟩ <;>
      exact hrank (by simp [Part.rank])
  · rintro _ ((⟨t, -, rfl⟩ | ⟨i, c, t, -, -, rfl⟩) | ⟨i, c, t, -, -, rfl⟩) _ ⟨t', -, rfl⟩ <;>
      exact hrank (by simp [Part.rank])

/-- The texts of the parts: free texts, conditions, and the condition of the scope. -/
theorem map_string_parts (q : Query) :
    q.parts.map Part.string = q.texts ++ q.criteria.filterMap Criterion.condition?
      ++ (q.scope.bind Scope.condition?).toList := by
  have hfree :
      (marked Criterion.freeText? (fun i _ => Part.freeText i) q.criteria).map Part.string =
      q.criteria.filterMap Criterion.freeText? := map_marked fun _ _ _ => rfl
  have hcondition :
      (marked Criterion.condition? (fun i _ => Part.condition i) q.criteria).map Part.string =
        q.criteria.filterMap Criterion.condition? := map_marked fun _ _ _ => rfl
  have htext : ((q.text.filter fun t => !Text.blank t).map Part.text).toList.map Part.string =
      q.text.toList.filter fun t => !Text.blank t := by
    cases q.text with
    | none => rfl
    | some t => cases h : Text.blank t <;> simp [h, Part.string]
  have hscope : ((q.scope.bind Scope.condition?).map Part.scope).toList.map Part.string =
      (q.scope.bind Scope.condition?).toList := by
    cases q.scope.bind Scope.condition? <;> rfl
  -- Free text of a criterion is never blank, so the filter drops the query's own text at most.
  have hlive : (q.criteria.filterMap Criterion.freeText?).filter (fun t => !Text.blank t) =
      q.criteria.filterMap Criterion.freeText? := by
    refine List.filter_eq_self.mpr fun t ht => ?_
    obtain ⟨c, -, hc⟩ := List.mem_filterMap.mp ht
    simp [Criterion.not_blank_of_freeText? hc]
  rw [parts, List.map_append, List.map_append, List.map_append, htext, hfree, hcondition, hscope,
    texts, List.filter_append, hlive]

end Query

/-! ## Glue -/

/-- What stands between the parts of a line. -/
inductive Glue where
  /-- A space. -/
  | space
  /-- What opens alternatives. -/
  | opening
  /-- What stands between alternatives. -/
  | alternative
  /-- What closes alternatives. -/
  | closing
  /-- The condition that always holds. -/
  | always
  deriving DecidableEq, Repr

/-- The text of glue. -/
def Glue.text : Glue → String
  | .space => " "
  | .opening => "~("
  | .alternative => " OR "
  | .closing => ")"
  | .always => baseCondition

/-- A part of a line, or glue. -/
inductive Segment where
  /-- The text of a part. -/
  | part (t : String)
  /-- Glue. -/
  | glue (g : Glue)
  deriving DecidableEq, Repr

/-- The text of a segment. -/
def Segment.text : Segment → String
  | .part t => t
  | .glue g => g.text

/-- The text of the part that a segment is, if it is one. -/
def Segment.part? : Segment → Option String
  | .part t => some t
  | .glue _ => none

/-- A text is made of parts: these stand in it in order and apart from each other, and what is left
without them is glue. -/
def Composed (line : String) (parts : List String) : Prop :=
  ∃ segments : List Segment, String.join (segments.map Segment.text) = line ∧
    segments.filterMap Segment.part? = parts

namespace Composed

theorem nil : Composed "" [] :=
  ⟨[], rfl, rfl⟩

theorem part (t : String) : Composed t [t] :=
  ⟨[.part t], by simp [String.join_cons, Segment.text], rfl⟩

theorem glue (g : Glue) : Composed g.text [] :=
  ⟨[.glue g], by simp [String.join_cons, Segment.text], rfl⟩

theorem append {line line' : String} {parts parts' : List String} (h : Composed line parts)
    (h' : Composed line' parts') : Composed (line ++ line') (parts ++ parts') := by
  obtain ⟨segments, hline, hparts⟩ := h
  obtain ⟨segments', hline', hparts'⟩ := h'
  refine ⟨segments ++ segments', ?_, ?_⟩
  · rw [List.map_append, String.join_append, hline, hline']
  · rw [List.filterMap_append, hparts, hparts']

/-- Texts that are made of parts, with glue between them. -/
theorem intercalate (g : Glue) (pieces : List (String × List String))
    (h : ∀ piece ∈ pieces, Composed piece.1 piece.2) :
    Composed (g.text.intercalate (pieces.map Prod.fst)) (pieces.flatMap Prod.snd) := by
  induction pieces with
  | nil => exact nil
  | cons piece pieces ih =>
    obtain ⟨hpiece, hpieces⟩ := List.forall_mem_cons.mp h
    cases pieces with
    | nil => simpa using hpiece
    | cons next pieces =>
      have hglued := (hpiece.append (glue g)).append (ih hpieces)
      rw [List.append_nil] at hglued
      rw [List.map_cons, List.map_cons, String.intercalate_cons_cons, List.flatMap_cons]
      exact hglued

/-- Parts with glue between them. -/
theorem intercalate_parts (g : Glue) (parts : List String) :
    Composed (g.text.intercalate parts) parts := by
  have h := intercalate g (parts.map fun t => (t, [t])) <| by
    intro piece hpiece
    obtain ⟨t, -, rfl⟩ := List.mem_map.mp hpiece
    exact part t
  simpa [List.flatMap_map, Function.comp_def] using h

end Composed

/-- A clause is made of its conditions. -/
theorem Clause.composed (c : Clause) : Composed c.text c.conditions := by
  have hand := Composed.intercalate_parts .space c.conditions
  have hor := ((Composed.glue .opening).append
    (Composed.intercalate_parts .alternative c.conditions)).append (Composed.glue .closing)
  rw [List.append_nil, List.nil_append] at hor
  obtain ⟨head, tail, connector⟩ := c
  cases tail with
  | nil => exact Composed.part head
  | cons second tail =>
    cases connector with
    | and => exact hand
    | or => exact hor

/-! ## The line -/

namespace Query

variable {q : Query}

/-- The line before its limit: free texts, or the condition that always holds, and conditions. -/
def body (q : Query) : String :=
  " ".intercalate ((if q.texts = [] then baseCondition else " ".intercalate q.texts) ::
    (clauseTexts (q.criteria.filterMap Criterion.linked?) ++
      (q.scope.bind Scope.condition?).toList))

/-- The conditions of the clauses are those of the criteria. -/
theorem flatMap_conditions (q : Query) :
    (clauses (q.criteria.filterMap Criterion.linked?)).flatMap Clause.conditions =
      q.criteria.filterMap Criterion.condition? := by
  rw [clauses_flatMap_conditions, live_filterMap_linked?, List.map_filterMap]
  congr 1
  funext c
  cases h : c.condition? <;> simp [Criterion.linked?, h]

/-- The body of a line is made of the parts of the query. -/
theorem composed_body (q : Query) : Composed q.body (q.parts.map Part.string) := by
  have hlead :
      Composed (if q.texts = [] then baseCondition else " ".intercalate q.texts) q.texts := by
    split
    · next hnil =>
      rw [hnil]
      exact Composed.glue .always
    · exact Composed.intercalate_parts .space q.texts
  have hbody := Composed.intercalate .space ((_, q.texts) ::
      ((clauses (q.criteria.filterMap Criterion.linked?)).map fun c => (c.text, c.conditions))
        ++ (q.scope.bind Scope.condition?).toList.map fun t => (t, [t])) <| by
    simp only [List.forall_mem_append, List.forall_mem_cons, List.forall_mem_map]
    exact ⟨⟨hlead, fun c _ => c.composed⟩, fun t _ => Composed.part t⟩
  simpa [body, clauseTexts, map_string_parts, ← flatMap_conditions, List.flatMap_map,
    Function.comp_def, Glue.text] using hbody

/-- There are no clauses exactly when no criterion becomes a condition. -/
theorem clauseTexts_eq_nil_iff : clauseTexts (q.criteria.filterMap Criterion.linked?) = [] ↔
    q.criteria.filterMap Criterion.condition? = [] := by
  rw [← flatMap_conditions, clauseTexts, List.map_eq_nil_iff]
  cases clauses (q.criteria.filterMap Criterion.linked?) <;> simp [Clause.conditions]

theorem parts_eq_nil_iff :
    q.parts = [] ↔ q.texts = [] ∧ clauseTexts (q.criteria.filterMap Criterion.linked?)
      ++ (q.scope.bind Scope.condition?).toList = [] := by
  rw [← List.map_eq_nil_iff (f := Part.string), map_string_parts, List.append_eq_nil_iff,
    List.append_eq_nil_iff, List.append_eq_nil_iff, clauseTexts_eq_nil_iff, and_assoc]

/-- Free texts lead the line unless there are none: joined, they are not blank. -/
theorem filter_intercalate_texts (q : Query) :
    ((some (" ".intercalate q.texts)).filter fun t => !Text.blank t) =
      if q.texts = [] then none else some (" ".intercalate q.texts) := by
  split
  · next hnil =>
    rw [hnil]
    rfl
  · next hne =>
    have hjoined := blank_intercalate hne (fun t ht => not_blank_of_mem_texts ht) " "
    rw [Option.filter_some, hjoined]
    rfl

/-- **The line of a query** is empty when the query has no parts; otherwise it is made of the parts,
and the limit stands behind them. -/
theorem composed_line {line : String} (h : q.compile.result = .ok line) :
    (q.parts = [] → line = "") ∧ (q.parts ≠ [] → Composed q.body (q.parts.map Part.string) ∧
      line = q.body ++ limitText (q.limit.map fun n => n.value.toNat)) := by
  have hline : line = assemble (some (" ".intercalate q.texts))
      (clauseTexts (q.criteria.filterMap Criterion.linked?)) (q.scope.bind Scope.condition?)
      q.limit := by
    rw [compile_result] at h
    split at h
    · cases h
    · exact (Except.ok.inj h).symm
  have hconditions : (clauseTexts (q.criteria.filterMap Criterion.linked?)
      ++ (q.scope.bind Scope.condition?).toList).filter (· ≠ "") =
        clauseTexts (q.criteria.filterMap Criterion.linked?)
          ++ (q.scope.bind Scope.condition?).toList := by
    refine List.filter_eq_self.mpr fun t ht => decide_eq_true ?_
    rintro rfl
    exact empty_notMem_conditions ht
  -- The line is empty on a condition about its pieces, which says that there are no parts.
  have hempty : ((if q.texts = [] then none else some (" ".intercalate q.texts)).isNone = true ∧
      clauseTexts (q.criteria.filterMap Criterion.linked?)
        ++ (q.scope.bind Scope.condition?).toList = []) ↔ q.parts = [] := by
    rw [parts_eq_nil_iff]
    split <;> simp [*]
  have hlead : (if q.texts = [] then none else some (" ".intercalate q.texts)).getD baseCondition =
      if q.texts = [] then baseCondition else " ".intercalate q.texts := by
    split <;> rfl
  unfold assemble at hline
  dsimp only at hline
  simp only [filter_intercalate_texts, hconditions, hempty, hlead] at hline
  constructor
  · intro hnil
    rw [hline, if_pos hnil]
  · intro hne
    refine ⟨q.composed_body, ?_⟩
    rw [hline, if_neg hne]
    cases q.limit with
    | none => exact (String.append_empty).symm
    | some n => exact String.append_assoc

end Query

end NoteTools
