import NoteTools.Proofs.AttributeGrammar
import NoteTools.Proofs.QueryLead

/-!
# The names of labels and relations

The name of a label or a relation stands in a condition as it was given, without the blanks around
it, while the value that it is compared with is quoted. So a query is read as it was asked exactly
when all these names are names of the grammar: then a condition is one item of the line whatever
stands beside it. A name with white space, a quotation mark or a parenthesis in it is none, and what
stands in it can be read as further conditions, as a limit, or as the end of alternatives.

Main definitions:

* `Criterion.attributeTest?`, `Criterion.item?`: what a criterion asks for;
* `Query.demands`: what a query asks for beside free text, grouped by its connectors;
* `Query.WellNamed`: its labels and relations have names of the grammar.

Results:

* `Criterion.exists_attributeTest`: the condition of a label or a relation;
* `Criterion.condition?_eq_item`: a condition is the written form of its item;
* `Query.tail_eq`: what stands behind the lead of a line;
* `query_read_iff_names`: a query is read as it was asked exactly when its names are names.
-/

namespace NoteTools

open Grammar

/-! ## Specification -/

/-- The sigil of conditions on labels, and that of conditions on relations. -/
def Criterion.Kind.sigil? : Criterion.Kind → Option Char
  | .label => some '#'
  | .relation => some '~'
  | .noteProperty => none
  | .freeText => none

namespace Criterion

/-- What a criterion on a label or a relation asks for, unless it is dropped: that there is one of
its name, that there is none, or what the value compares like. -/
def attributeTest? (c : Criterion) : Option AttributeTest :=
  if c.condition?.isNone then none
  else
    match c.kind.sigil?, Operator.of? c, c.value with
    | some sigil, some .present, _ => some ⟨sigil, Text.trim c.property, none⟩
    | some sigil, some .absent, _ => some ⟨sigil, "!" ++ Text.trim c.property, none⟩
    | some sigil, some (.compare op), some value =>
      some ⟨sigil, Text.trim c.property ++ c.comparedPath, some (op, value)⟩
    | _, _, _ => none

/-- What a criterion asks for, unless it is free text or dropped. -/
def item? (c : Criterion) : Option Item :=
  match c.kind with
  | .label | .relation => c.attributeTest?.map .ofAttribute
  | .noteProperty => c.atom?.map .ofNote
  | .freeText => none

end Criterion

/-- The demands of a run: items held by `or` are alternatives, others stand on their own. -/
def Grammar.Demand.ofRun : List (Item × Connector) → List Demand
  | (first, .or) :: (second, _) :: others => [.anyOf first second (others.map Prod.fst)]
  | run => run.map fun x => .item x.1

namespace Query

/-- What a query asks for beside free text: its criteria, grouped by their connectors, and its
scope. -/
def demands (q : Query) : List Demand :=
  (runs (linkedBy Criterion.item? q.criteria)).flatMap Demand.ofRun ++
    ((q.scope.bind Scope.atom?).map fun a => Demand.item (.ofNote a)).toList

/-- The names of labels and relations in the conditions of a query are names of the grammar. -/
def WellNamed (q : Query) : Prop :=
  ∀ c ∈ q.criteria, c.kind.sigil?.isSome → ∀ text, c.fragment = .ok (.condition text) →
    IsName (Text.trim c.property).toList

/-- The limit of a query, as a number. -/
def limitNumber (q : Query) : Option Nat :=
  q.limit.map fun n => n.value.toNat

end Query

/-! ## Conditions on labels and relations -/

theorem Criterion.Kind.mem_sigils {kind : Criterion.Kind} {sigil : Char}
    (h : kind.sigil? = some sigil) : sigil ∈ sigils := by
  cases kind <;> cases h <;> decide

/-- A mark and a path of names make up no more than a name does. -/
theorem isName_append_iff {mark name path : String} (hmark : mark ∈ ["", "!"])
    (hpath : path ∈ ["", ".title"]) (hname : name ≠ "") :
    IsName (mark ++ name ++ path).toList ↔ IsName name.toList := by
  have hmarks : ∀ m ∈ ["", "!"], m.toList.all isNameChar = true := by decide +kernel
  have hpaths : ∀ p ∈ ["", ".title"], p.toList.all isNameChar = true := by decide +kernel
  have hne : name.toList ≠ [] := fun hnil => hname (String.toList_eq_nil_iff.mp hnil)
  rw [String.toList_append, String.toList_append, IsName, IsName]
  simp only [List.forall_mem_append, ne_eq, List.append_eq_nil_iff, hne, and_false, false_and,
    not_false_eq_true, true_and]
  exact ⟨fun h => h.1.2, fun h =>
    ⟨⟨List.all_eq_true.mp (hmarks mark hmark), h⟩, List.all_eq_true.mp (hpaths path hpath)⟩⟩

namespace Criterion

variable {c : Criterion} {sigil : Char} {text : String}

theorem fragment_of_sigil? (h : c.kind.sigil? = some sigil) :
    c.fragment = .ok (c.attribute (String.singleton sigil)) := by
  rw [fragment]
  cases hkind : c.kind with
  | label | relation =>
    rw [hkind] at h
    cases h
    rfl
  | noteProperty | freeText =>
    rw [hkind] at h
    cases h

/-- **The condition of a label or a relation** is a sigil, a name and maybe a comparison. The name
is the property without the blanks around it, with a mark in front of it for absence and a path
behind it for the comparison of a relation. -/
theorem exists_attributeTest (hsigil : c.kind.sigil? = some sigil)
    (h : c.fragment = .ok (.condition text)) :
    ∃ t mark path, c.attributeTest? = some t ∧ text = t.text ∧ t.sigil = sigil ∧
      t.name = mark ++ Text.trim c.property ++ path ∧ mark ∈ ["", "!"] ∧ path ∈ ["", ".title"] ∧
      (IsName t.name.toList ↔ IsName (Text.trim c.property).toList) := by
  have hcondition : c.condition? = some text := by rw [condition?, h]
  rw [fragment_of_sigil? hsigil] at h
  have hattribute := Except.ok.inj h
  obtain ⟨reason, hshape⟩ |
      ⟨hname, ⟨hop, hshape⟩ | ⟨hop, hshape⟩ | ⟨op, value, hop, hvalue, hshape⟩⟩ :=
    c.attribute_shapes (String.singleton sigil)
  all_goals
    rw [hshape] at hattribute
    cases hattribute
  · exact ⟨⟨sigil, Text.trim c.property, none⟩, "", "",
      by simp [attributeTest?, hsigil, hcondition, hop], rfl, rfl, by simp, by simp, by simp,
      Iff.rfl⟩
  · refine ⟨⟨sigil, "!" ++ Text.trim c.property, none⟩, "!", "",
      by simp [attributeTest?, hsigil, hcondition, hop], String.append_assoc, rfl, by simp,
      by simp, by simp, ?_⟩
    have hiff : IsName ("!" ++ Text.trim c.property ++ "").toList ↔ _ :=
      isName_append_iff (by simp) (by simp) hname
    rwa [String.append_empty] at hiff
  · have hpath : c.comparedPath ∈ ["", ".title"] := by
      unfold comparedPath
      split <;> simp
    refine ⟨⟨sigil, Text.trim c.property ++ c.comparedPath, some (op, value)⟩, "", c.comparedPath,
      by simp [attributeTest?, hsigil, hcondition, hop, hvalue], ?_, rfl, by simp, by simp,
      hpath, ?_⟩
    · simp only [AttributeTest.text, String.append_assoc]
    · have hiff : IsName ("" ++ Text.trim c.property ++ c.comparedPath).toList ↔ _ :=
        isName_append_iff (by simp) hpath hname
      rwa [String.empty_append] at hiff

/-- What is dropped asks for nothing. -/
theorem attributeTest?_eq_none (h : c.condition? = none) : c.attributeTest? = none := by
  rw [attributeTest?, h]
  rfl

theorem item?_of_sigil? (h : c.kind.sigil? = some sigil) :
    c.item? = c.attributeTest?.map .ofAttribute := by
  rw [item?]
  cases hkind : c.kind with
  | label | relation => rfl
  | noteProperty | freeText =>
    rw [hkind] at h
    cases h

/-- A condition is the written form of its item. -/
theorem condition?_eq_item (c : Criterion) : c.condition? = c.item?.map Item.text := by
  cases hkind : c.kind.sigil? with
  | some sigil =>
    rw [item?_of_sigil? hkind]
    cases hcondition : c.condition? with
    | none =>
      rw [attributeTest?_eq_none hcondition]
      rfl
    | some text =>
      obtain ⟨t, -, -, ht, htext, -⟩ :=
        exists_attributeTest hkind (fragment_of_condition? hcondition)
      rw [ht, htext]
      rfl
  | none =>
    cases h : c.kind with
    | label | relation => rw [h] at hkind; cases hkind
    | noteProperty =>
      rw [(condition?_eq h).1, item?, h, Option.map_map]
      rfl
    | freeText =>
      have hcondition : c.condition? = none := by
        rw [condition?_eq_none_iff, fragment, h]
        rintro text htext
        dsimp only at htext
        split at htext <;> cases htext
      rw [hcondition, item?, h]
      rfl

/-- An item can be read back unless it has a name that is none. -/
theorem readable_item_iff (c : Criterion) : (∀ x ∈ c.item?, x.Readable) ↔
    (c.kind.sigil?.isSome → ∀ text, c.fragment = .ok (.condition text) →
      IsName (Text.trim c.property).toList) := by
  cases hkind : c.kind.sigil? with
  | some sigil =>
    rw [item?_of_sigil? hkind]
    constructor
    · intro h _ text htext
      obtain ⟨t, -, -, ht, -, -, -, -, -, hname⟩ := exists_attributeTest hkind htext
      exact hname.mp (AttributeTest.Readable.name (h (.ofAttribute t) (by rw [ht]; rfl)))
    · rintro h x hx
      obtain ⟨t', ht', rfl⟩ := Option.map_eq_some_iff.mp hx
      cases hcondition : c.condition? with
      | none =>
        rw [attributeTest?_eq_none hcondition] at ht'
        cases ht'
      | some text =>
        have htext := fragment_of_condition? hcondition
        obtain ⟨t, -, -, ht, -, hsigil, -, -, -, hname⟩ := exists_attributeTest hkind htext
        obtain rfl : t = t' := Option.some.inj (ht.symm.trans ht')
        refine ⟨?_, hname.mpr (h rfl text htext)⟩
        rw [hsigil]
        exact Kind.mem_sigils hkind
  | none =>
    refine iff_of_true (fun x hx => ?_) (by rintro ⟨⟩)
    cases h : c.kind with
    | label | relation =>
      rw [h] at hkind
      cases hkind
    | noteProperty =>
      rw [item?, h] at hx
      obtain ⟨a, ha, rfl⟩ := Option.map_eq_some_iff.mp hx
      exact (condition?_eq h).2 a ha
    | freeText =>
      rw [item?, h] at hx
      cases hx

end Criterion

/-! ## The line -/

/-- The pieces of a run of items are its demands. -/
theorem runPieces_items (run : List (Item × Connector)) :
    runPieces (run.map (Prod.map Item.text id)) = (Demand.ofRun run).map Demand.text := by
  match run with
  | [] => rfl
  | [(x, .and)] => rfl
  | [(x, .or)] => rfl
  | (first, .and) :: (second, k) :: others =>
    simp [runPieces, Demand.ofRun, Demand.text, Function.comp_def]
  | (first, .or) :: (second, k) :: others =>
    simp [runPieces, Demand.ofRun, Demand.text, Function.comp_def]

theorem flatMap_items_ofRun (run : List (Item × Connector)) :
    (Demand.ofRun run).flatMap Demand.items = run.map Prod.fst := by
  unfold Demand.ofRun
  split
  · simp [Demand.items]
  · rw [List.flatMap_map]
    exact (List.map_eq_flatMap ..).symm

namespace Query

variable {q : Query}

/-- What stands behind the lead of a line is what the query asks for, and its limit. -/
theorem tail_eq (q : Query) :
    q.tail = spaced (q.demands.map Demand.text) ++ (limitText q.limitNumber).toList := by
  have hclauses : spaced (clauseTexts (q.criteria.filterMap Criterion.linked?)) =
      spaced (((runs (linkedBy Criterion.item? q.criteria)).flatMap Demand.ofRun).map
        Demand.text) := by
    rw [spaced_clauseTexts_map fun c _ => c.condition?_eq_item, List.map_flatMap]
    exact congrArg spaced (List.flatMap_congr fun run _ => runPieces_items run)
  have hscope : spaced (q.scope.bind Scope.condition?).toList =
      spaced ((((q.scope.bind Scope.atom?).map fun a => Demand.item (.ofNote a)).toList).map
        Demand.text) := by
    rw [Scope.bind_condition?]
    cases q.scope.bind Scope.atom? <;> rfl
  have hspaced (texts texts' : List String) :
      spaced (texts ++ texts') = spaced texts ++ spaced texts' := List.flatMap_append
  rw [tail, conditions, demands, List.map_append, hspaced, hspaced, hclauses, hscope]
  rfl

/-- Every criterion that is not dropped and no free text is one item, in order; the scope comes
last. -/
theorem flatMap_items_demands (q : Query) :
    q.demands.flatMap Demand.items = q.criteria.filterMap Criterion.item? ++
      ((q.scope.bind Scope.atom?).map Item.ofNote).toList := by
  rw [demands, List.flatMap_append, flatMap_runs flatMap_items_ofRun, map_fst_linkedBy]
  cases q.scope.bind Scope.atom? <;> rfl

/-- What a query asks for can be read back exactly when its names are names. -/
theorem readable_demands_iff (q : Query) :
    (∀ x ∈ q.demands.flatMap Demand.items, x.Readable) ↔ q.WellNamed := by
  have hscope : ∀ x ∈ ((q.scope.bind Scope.atom?).map Item.ofNote).toList, x.Readable := by
    intro x hx
    obtain ⟨a, ha, rfl⟩ := Option.map_eq_some_iff.mp (Option.mem_toList.mp hx)
    obtain ⟨s, -, hatom⟩ := Option.bind_eq_some_iff.mp ha
    exact s.condition?_eq.2 a hatom
  rw [flatMap_items_demands, List.forall_mem_append, and_iff_left hscope]
  constructor
  · intro h c hc
    exact c.readable_item_iff.mp fun x hx => h x (List.mem_filterMap.mpr ⟨c, hc, hx⟩)
  · intro h x hx
    obtain ⟨c, hc, hitem⟩ := List.mem_filterMap.mp hx
    exact c.readable_item_iff.mpr (h c hc) x hitem

/-- A line is read as it was asked exactly when the names of its query are names. -/
theorem readsDemands_tail_iff (q : Query) :
    (∀ demands limit, ReadsDemands q.tail demands limit ↔
      demands = q.demands ∧ limit = q.limitNumber) ↔ q.WellNamed := by
  rw [← readable_demands_iff, tail_eq]
  constructor
  · intro h
    exact ((h q.demands q.limitNumber).mpr ⟨rfl, rfl⟩).readable
  · intro h demands limit
    have hread := readsDemands_text q.limitNumber h
    refine ⟨fun h' => h'.unique hread, ?_⟩
    rintro ⟨rfl, rfl⟩
    exact hread

end Query

/-- **A query is read as it was asked exactly when its names are names.** The condition of a label
or a relation is a sigil, the property without the blanks around it, and maybe a comparison with a
quoted value. Behind the lead of a line stands what was asked for: one item for each criterion that
is not dropped, then the scope and the limit. It is read so, and in no other way, if all names of
labels and relations are names of the grammar; otherwise it is not. -/
theorem query_read_iff_names (q : Query) (line : String) (hok : q.compile.result = .ok line) :
    (∀ c ∈ q.criteria, ∀ sigil, c.kind.sigil? = some sigil →
      ∀ text, c.fragment = .ok (.condition text) →
        ∃ t mark path, c.attributeTest? = some t ∧ text = t.text ∧ t.sigil = sigil ∧
          t.name = mark ++ Text.trim c.property ++ path ∧ mark ∈ ["", "!"] ∧
          path ∈ ["", ".title"] ∧
          (IsName t.name.toList ↔ IsName (Text.trim c.property).toList)) ∧
    (line ≠ "" → line.toList = q.lead.toList ++ q.tail) ∧
    q.demands.flatMap Demand.items = q.criteria.filterMap Criterion.item? ++
      ((q.scope.bind Scope.atom?).map Item.ofNote).toList ∧
    ((∀ demands limit, ReadsDemands q.tail demands limit ↔
      demands = q.demands ∧ limit = q.limitNumber) ↔ q.WellNamed) :=
  ⟨fun _ _ _ hsigil _ htext => Criterion.exists_attributeTest hsigil htext, Query.toList_line hok,
    q.flatMap_items_demands, q.readsDemands_tail_iff⟩

/-- A query of two alternatives, two conditions, a scope and a limit; a value tries to be more. -/
def branchQuery : Query where
  criteria :=
    [⟨" book ", .label, none, none, some .or⟩,
     ⟨"author", .relation, some "contains", some "') limit 5", some .or⟩,
     ⟨"isArchived", .noteProperty, some "=", some "true", some .and⟩,
     ⟨"draft", .label, some "not_exists", none, none⟩]
  scope := some ⟨.children, "root"⟩
  limit := Limit.of? 3

/-- What `branchQuery` asks for. -/
def branchDemands : List Demand :=
  [.anyOf (.ofAttribute ⟨'#', "book", none⟩)
      (.ofAttribute ⟨'~', "author.title", some (.contains, "') limit 5")⟩) [],
    .item (.ofNote ⟨"isArchived", "=", .word "true"⟩), .item (.ofAttribute ⟨'#', "!draft", none⟩),
    .item (.ofNote ⟨"parents.noteId", "=", .literal "root"⟩)]

/-- What `branchQuery` compiles to. -/
def branchLine : String :=
  "note.noteId != '' ~(#book OR ~author.title *=* '\\') limit 5') note.isArchived = true #!draft" ++
    " note.parents.noteId = 'root' limit 3"

theorem query_read_iff_names_branch :
    branchQuery.compile.result = .ok branchLine ∧ branchQuery.WellNamed ∧
      ∀ demands limit, ReadsDemands branchQuery.tail demands limit ↔
        demands = branchDemands ∧ limit = some 3 := by
  have hok : branchQuery.compile.result = .ok branchLine := by decide +kernel
  have hnames : ∀ c ∈ branchQuery.criteria, IsName (Text.trim c.property).toList := by
    decide +kernel
  have hdemands : branchQuery.demands = branchDemands := by decide +kernel
  have hwell : branchQuery.WellNamed := fun c hc _ _ _ => hnames c hc
  obtain ⟨-, -, -, hread⟩ := query_read_iff_names branchQuery branchLine hok
  rw [← hdemands]
  exact ⟨hok, hwell, hread.mpr hwell⟩

/-- A label with white space in its name. -/
def strayCriterion : Criterion where
  property := "book limit 1"
  kind := .label

/-- A query of that label, without a limit. -/
def strayQuery : Query where
  criteria := [strayCriterion]

/-- Two alternatives; the name of the first one ends them early and opens others. -/
def breachQuery : Query where
  criteria :=
    [{ property := "a OR #b) #c ~(#d", kind := .label, connector := some .or },
     { property := "e", kind := .label }]

/-- The item of a label. -/
def labelItem (name : String) : Item :=
  .ofAttribute ⟨'#', name, none⟩

/-- The names of labels are read back from the written forms of their items. -/
theorem readsDemands_labels {demands : List Demand} {names : List String}
    (hitems : demands.flatMap Demand.items = names.map labelItem)
    (hnames : ∀ name ∈ names, IsName name.toList) (limit : Option Nat) :
    ReadsDemands (spaced (demands.map Demand.text) ++ (limitText limit).toList) demands limit := by
  refine readsDemands_text limit ?_
  rw [hitems, List.forall_mem_map]
  exact fun name hname => ⟨List.mem_cons_self, hnames name hname⟩

/-- A name can set a limit, and it can end alternatives and open others. -/
theorem attribute_name_strays :
    strayCriterion.fragment = .ok (.condition "#book limit 1") ∧
      ¬IsName "book limit 1".toList ∧
      strayQuery.compile.result = .ok "note.noteId != '' #book limit 1" ∧ strayQuery.limit = none ∧
      ReadsDemands strayQuery.tail [.item (labelItem "book")] (some 1) ∧
      breachQuery.compile.result = .ok "note.noteId != '' ~(#a OR #b) #c ~(#d OR #e)" ∧
      ReadsDemands breachQuery.tail [.anyOf (labelItem "a") (labelItem "b") [],
        .item (labelItem "c"), .anyOf (labelItem "d") (labelItem "e") []] none := by
  have hstray : strayQuery.tail =
      spaced ([Demand.item (labelItem "book")].map Demand.text) ++ (limitText (some 1)).toList := by
    decide +kernel
  have hbreach : breachQuery.tail =
      spaced ([Demand.anyOf (labelItem "a") (labelItem "b") [], .item (labelItem "c"),
        .anyOf (labelItem "d") (labelItem "e") []].map Demand.text) ++ (limitText none).toList := by
    decide +kernel
  have hbook : ∀ name ∈ ["book"], IsName name.toList := by decide +kernel
  have hnames : ∀ name ∈ ["a", "b", "c", "d", "e"], IsName name.toList := by decide +kernel
  rw [hstray, hbreach]
  exact ⟨by decide +kernel, by decide +kernel, by decide +kernel, rfl,
    readsDemands_labels rfl hbook (some 1), by decide +kernel,
    readsDemands_labels rfl hnames none⟩

end NoteTools
