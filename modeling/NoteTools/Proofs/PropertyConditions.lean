import NoteTools.Proofs.Compilation

/-!
# Conditions on note properties

A criterion on a note property is checked in a fixed order: its key, its operator, its value, and
last what the class of the key asks of the value. It compares when its operator is a comparison and
its value is not blank; only then does its class have a say, and only a date can be an error.

Main definitions:

* `comparisonNames`, `Criterion.NamesComparison`: the operators that compare;
* `Criterion.Compares`: a comparison of a property with a value.

Results:

* `Criterion.fragment_of_compares`: a comparison becomes what the class of its key makes of the
  value;
* `Criterion.fragment_of_not_compares`: a criterion on a known property that compares nothing is
  dropped, whatever its value.
-/

namespace NoteTools

/-- The names of the comparisons of note properties, in small letters. -/
def comparisonNames : List String :=
  ["=", "!=", "not_equal", ">=", "<=", ">", "<", "contains", "starts_with", "ends_with", "regex"]

namespace Criterion

/-- The operator of a criterion, trimmed and in small letters, is the name of a comparison. -/
def NamesComparison (c : Criterion) : Prop :=
  ∃ name, c.op = some name ∧ Text.lowerAscii (Text.trim name) ∈ comparisonNames

/-- A criterion on a note property compares it with a value. -/
structure Compares (c : Criterion) (value : String) : Prop where
  kind : c.kind = .noteProperty
  names : c.NamesComparison
  given : c.value = some value
  not_blank : Text.blank value = false

end Criterion

/-! ## Operators -/

/-- The operator is a comparison. -/
def Operator.isComparison : Operator → Bool
  | .compare _ => true
  | _ => false

theorem Operator.exists_eq_compare_iff {op? : Option Operator} :
    (∃ op, op? = some (.compare op)) ↔ op?.any isComparison = true := by
  rcases op? with _ | _ | _ | op <;> simp [isComparison]

/-- The names of the operators that compare. -/
theorem Operator.ofName?_isComparison_iff {name : String} :
    (ofName? .noteProperty name).any isComparison = true ↔
      Text.lowerAscii (Text.trim name) ∈ comparisonNames := by
  have hnames : ∀ p ∈ names, p.2.isComparison = true → p.1 ∈ comparisonNames := by decide
  have hfound : ∀ n ∈ comparisonNames, n ≠ "not_equal" →
      (names.lookup n).any isComparison = true := by decide
  rw [ofName?]
  generalize Text.lowerAscii (Text.trim name) = small
  by_cases h : small = "not_equal"
  · simp [h, isComparison, comparisonNames]
  · rw [if_neg (fun hboth => h hboth.1)]
    refine ⟨fun hcompare => ?_, fun hmem => hfound small hmem h⟩
    obtain ⟨op, hlookup, hop⟩ := (Option.any_eq_true _ _).mp hcompare
    obtain ⟨front, back, hsplit, -⟩ := List.lookup_eq_some_iff.mp hlookup
    have hmem : (small, op) ∈ names := by
      rw [hsplit]
      exact List.mem_append_right front List.mem_cons_self
    exact hnames _ hmem hop

namespace Criterion

variable {c : Criterion} {cls : PropertyClass} {value : String}

theorem namesComparison_iff (h : c.kind = .noteProperty) :
    c.NamesComparison ↔ ∃ op, Operator.of? c = some (.compare op) := by
  rw [Operator.exists_eq_compare_iff, NamesComparison, Operator.of?, h]
  cases c.op with
  | none => simp [Operator.isComparison]
  | some name => simp [Operator.ofName?_isComparison_iff]

theorem givenValue?_eq_some_iff :
    c.givenValue? = some value ↔ c.value = some value ∧ Text.blank value = false := by
  rw [givenValue?, Option.filter_eq_some_iff, Bool.not_eq_true']

theorem compares_iff :
    c.Compares value ↔ c.kind = .noteProperty ∧
      (∃ op, Operator.of? c = some (.compare op)) ∧ c.givenValue? = some value := by
  constructor
  · intro h
    exact ⟨h.kind, (namesComparison_iff h.kind).mp h.names,
      givenValue?_eq_some_iff.mpr ⟨h.given, h.not_blank⟩⟩
  · rintro ⟨hkind, hop, hvalue⟩
    obtain ⟨hgiven, hblank⟩ := givenValue?_eq_some_iff.mp hvalue
    exact ⟨hkind, (namesComparison_iff hkind).mpr hop, hgiven, hblank⟩

theorem key_ne_empty_of_class (h : PropertyClass.of? (keyOf c.property) = some cls) :
    keyOf c.property ≠ "" := by
  intro hempty
  rw [hempty] at h
  cases h

/-- A comparison becomes what the class of its key makes of the value. -/
theorem fragment_of_compares (hcls : PropertyClass.of? (keyOf c.property) = some cls)
    (h : c.Compares value) :
    ∃ op, Operator.of? c = some (.compare op) ∧
      c.fragment = match cls.render (keyOf c.property) value with
        | .error e => .error e
        | .ok (.error reason) => .ok (.dropped reason)
        | .ok (.ok written) =>
          .ok (.condition ("note." ++ keyOf c.property ++ " " ++ op.token ++ " " ++ written)) := by
  obtain ⟨hkind, ⟨op, hop⟩, hvalue⟩ := compares_iff.mp h
  refine ⟨op, hop, ?_⟩
  rw [fragment, hkind]
  dsimp only
  rw [noteFragment, if_neg (key_ne_empty_of_class hcls), hcls, hop, hvalue]
  dsimp only
  cases cls.render (keyOf c.property) value with
  | error e => rfl
  | ok written => cases written <;> rfl

/-- A criterion on a property that has no class is dropped. -/
theorem fragment_of_no_class (hkind : c.kind = .noteProperty)
    (hcls : PropertyClass.of? (keyOf c.property) = none) :
    ∃ reason, c.fragment = .ok (.dropped reason) := by
  rw [fragment, hkind]
  dsimp only
  rw [noteFragment, hcls]
  dsimp only
  split
  · exact ⟨_, rfl⟩
  · exact ⟨_, rfl⟩

/-- A criterion on a known property that compares nothing is dropped, whatever its value. -/
theorem fragment_of_not_compares (hkind : c.kind = .noteProperty)
    (hcls : PropertyClass.of? (keyOf c.property) = some cls) (h : ∀ value, ¬c.Compares value) :
    ∃ reason, c.fragment = .ok (.dropped reason) := by
  rw [fragment, hkind]
  dsimp only
  rw [noteFragment, if_neg (key_ne_empty_of_class hcls), hcls]
  dsimp only
  split
  · exact ⟨_, rfl⟩
  · exact ⟨_, rfl⟩
  · exact ⟨_, rfl⟩
  next op hop =>
    have hvalue : c.givenValue? = none := by
      rw [Option.eq_none_iff_forall_ne_some]
      intro value hvalue
      exact h value (compares_iff.mpr ⟨hkind, ⟨op, hop⟩, hvalue⟩)
    rw [hvalue]
    exact ⟨_, rfl⟩

end Criterion

end NoteTools
