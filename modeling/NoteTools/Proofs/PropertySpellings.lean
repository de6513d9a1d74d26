import NoteTools.Proofs.QueryReading
import NoteTools.Proofs.TrimmedText

/-!
# Spellings of a property

The property of a criterion may be written with blanks around it and with `note.` in front of it.
All spellings of a known key have that key, and nothing else has it. It is the key that stands in
the condition which the criterion becomes.

Main definitions:

* `SpellsKey`: the spellings of a key;
* `ConditionOn`: the conditions on a property.

Results:

* `keyOf_eq_iff_spellsKey`: which properties have a known key;
* `Criterion.conditionOn_iff`: the condition of a criterion is on the key of the criterion.
-/

namespace NoteTools

open Grammar

/-! ## Specification -/

/-- A property spells a key: there may be blanks around it, and `note.` in front of the key. -/
def SpellsKey (property key : String) : Prop :=
  ∃ front back, Text.blank front = true ∧ Text.blank back = true ∧
    (property = front ++ key ++ back ∨ property = front ++ ("note." ++ key) ++ back)

/-- A text is a condition on a note property, as it is read by the grammar. -/
def ConditionOn (key text : String) : Prop :=
  ∃ a, ReadsAtom text.toList a [] ∧ a.key = key

/-! ## Keys -/

namespace Criterion

/-- Behind `note.`, all of the trimmed property is its key. -/
theorem keyOf_of_trim_eq {property key : String} (h : Text.trim property = "note." ++ key) :
    keyOf property = key := by
  have hlist : (Text.trim property).toList = 'n' :: 'o' :: 't' :: 'e' :: '.' :: key.toList := by
    rw [h, String.toList_append]
    rfl
  rw [keyOf, hlist]
  exact String.ofList_toList

/-- A key is the trimmed property, or what stands in it behind `note.`. -/
theorem keyOf_cases (property : String) :
    Text.trim property = keyOf property ∨ Text.trim property = "note." ++ keyOf property := by
  unfold keyOf
  dsimp only
  split
  · next rest h =>
    right
    rw [← String.toList_inj, h, String.toList_append, String.toList_ofList, String.toList_ofList]
    rfl
  · exact .inl rfl

end Criterion

theorem not_isBlank_of_all {cs : List Char} (h : cs.all (!Text.isBlank ·) = true) :
    ∀ c ∈ cs, Text.isBlank c = false :=
  fun c hc => by simpa using List.all_eq_true.mp h c hc

/-- No known key has a blank or starts with `note.`. -/
theorem plain_of_propertyClass {key : String} {cls : PropertyClass}
    (h : PropertyClass.of? key = some cls) :
    (∀ c ∈ key.toList, Text.isBlank c = false) ∧ ¬"note.".toList <+: key.toList := by
  have hkeys : ∀ k ∈ booleanKeys ++ numericKeys ++ dateKeys ++ textKeys,
      k.toList.all (!Text.isBlank ·) = true ∧ ¬"note.".toList <+: k.toList := by
    decide +kernel
  have hmem : key ∈ booleanKeys ++ numericKeys ++ dateKeys ++ textKeys := by
    unfold PropertyClass.of? at h
    split_ifs at h with h₁ h₂ h₃ h₄
    all_goals simp [*]
  obtain ⟨hall, hnote⟩ := hkeys key hmem
  exact ⟨not_isBlank_of_all hall, hnote⟩

/-- A property that trims to a known key, or to `note.` and such a key, has that key. -/
theorem keyOf_of_trim {property key : String} {cls : PropertyClass}
    (hcls : PropertyClass.of? key = some cls)
    (h : Text.trim property = key ∨ Text.trim property = "note." ++ key) :
    Criterion.keyOf property = key := by
  obtain h | h := h
  · obtain hkey | hkey := Criterion.keyOf_cases property
    · exact hkey.symm.trans h
    · refine absurd ⟨(Criterion.keyOf property).toList, ?_⟩ (plain_of_propertyClass hcls).2
      rw [← h, hkey, String.toList_append]
  · exact Criterion.keyOf_of_trim_eq h

/-- **Spellings of a key.** A property has a known key exactly when it spells it. -/
theorem keyOf_eq_iff_spellsKey {property key : String} {cls : PropertyClass}
    (h : PropertyClass.of? key = some cls) :
    Criterion.keyOf property = key ↔ SpellsKey property key := by
  constructor
  · rintro rfl
    obtain ⟨front, back, hfront, hback, hproperty⟩ := Text.exists_eq_append_trim property
    refine ⟨front, back, hfront, hback, ?_⟩
    obtain hkey | hkey := Criterion.keyOf_cases property
    · rw [hkey] at hproperty
      exact .inl hproperty
    · rw [hkey] at hproperty
      exact .inr hproperty
  · have hplain := (plain_of_propertyClass h).1
    have hnote : ∀ c ∈ ("note." ++ key).toList, Text.isBlank c = false := by
      rw [String.toList_append, List.forall_mem_append]
      exact ⟨not_isBlank_of_all (by decide +kernel), hplain⟩
    rintro ⟨front, back, hfront, hback, rfl | rfl⟩
    · exact keyOf_of_trim h (.inl (by rw [Text.trim_append hfront hback, Text.trim_eq_self hplain]))
    · exact keyOf_of_trim h (.inr (by rw [Text.trim_append hfront hback, Text.trim_eq_self hnote]))

/-! ## Conditions -/

namespace Criterion

variable {c : Criterion} {text key : String}

/-- A condition on a note property is read as an atom with the key of the criterion. -/
theorem exists_readsAtom (hkind : c.kind = .noteProperty)
    (h : c.fragment = .ok (.condition text)) :
    ∃ a cls, ReadsAtom text.toList a [] ∧ a.key = keyOf c.property ∧
      PropertyClass.of? (keyOf c.property) = some cls := by
  have hcondition : c.condition? = some text := by rw [condition?, h]
  obtain ⟨hatom, hreadable⟩ := condition?_eq hkind
  rw [hcondition] at hatom
  obtain ⟨a, ha, htext⟩ := Option.map_eq_some_iff.mp hatom.symm
  have hread : ReadsAtom (a.text.toList ++ []) a [] :=
    readsAtom_text (hreadable a ha) (by rintro c ⟨⟩)
  rw [List.append_nil, htext] at hread
  unfold atom? at ha
  split at ha
  · next cls op value _ hcls _ _ =>
    have hkey : a.key = keyOf c.property := by rw [← Option.some.inj ha]
    exact ⟨a, cls, hread, hkey, hcls⟩
  · cases ha

/-- The condition of a criterion on a note property is on the key of the criterion, and on no other
one. -/
theorem conditionOn_iff (hkind : c.kind = .noteProperty)
    (h : c.fragment = .ok (.condition text)) : ConditionOn key text ↔ keyOf c.property = key := by
  obtain ⟨a, -, hread, hkey, -⟩ := exists_readsAtom hkind h
  constructor
  · rintro ⟨a', hread', rfl⟩
    rw [← hkey, (hread.unique hread').1]
  · rintro rfl
    exact ⟨a, hread, hkey⟩

end Criterion

end NoteTools
