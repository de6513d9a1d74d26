import Mathlib.Data.List.Nodup
import Mathlib.Data.List.Pairwise
import NoteTools.Json.Decode

/-!
# Decoding records by name

An object is opened as a record by taking each member to the field of its key. The record opens when
every field is given once at most and decodes, whatever the order of the members is and whatever
other members there are; a field that is not given needs a default.

Main definitions:

* `Scan.given`: a value as decoders see it;
* `Slot.given`: what the members of an object give for a field;
* `Apart`: fields that share no key;
* `Field.Fits`: a field can be filled from the members of an object;
* `Field.Has`: a field has a value by the members of an object;
* `DecodesAt`: what an object holds under a key decodes.

Results:

* `Scan.pass_given`: a given value can be passed over;
* `openMembers_ok_iff`, `lookup_openMembers`: when an object opens, and what it holds then;
* `get_ok_iff`: an opened record has the values that its members give;
* `openRecord_fits_iff`, `decodes_record_iff`: a record can be filled exactly when each of its
  fields can be;
* `fits_required`, `fits_withDefault`, `fits_required_orNamed`, `fits_withDefault_orNamed`: when a
  field can be, by its keys.
-/

namespace NoteTools.Json

/-- What goes on after a result gives a value when both do. -/
theorem bind_eq_ok_iff {ε α β : Type} {x : Except ε α} {f : α → Except ε β} {b : β} :
    x >>= f = .ok b ↔ ∃ a, x = .ok a ∧ f a = .ok b := by
  cases x with
  | error e =>
    constructor
    · rintro ⟨⟩
    · rintro ⟨a, ⟨⟩, -⟩
  | ok a =>
    constructor
    · exact fun h => ⟨a, rfl, h⟩
    · rintro ⟨_, ⟨⟩, h⟩
      exact h

theorem exists_bind_eq_ok_iff {ε α β : Type} {x : Except ε α} {f : α → Except ε β} :
    (∃ b, x >>= f = .ok b) ↔ ∃ a, x = .ok a ∧ ∃ b, f a = .ok b := by
  simp only [bind_eq_ok_iff]
  constructor
  · rintro ⟨b, a, ha, hb⟩
    exact ⟨a, ha, b, hb⟩
  · rintro ⟨a, ha, b, hb⟩
    exact ⟨b, a, ha, hb⟩

theorem exists_map_eq_ok_iff {ε α β : Type} {x : Except ε α} {f : α → β} :
    (∃ b, f <$> x = .ok b) ↔ ∃ a, x = .ok a := by
  cases x <;> simp [Functor.map, Except.map]

/-- A value as decoders see it, its members being in order. -/
def Scan.given (j : Json) : Scan :=
  Scan.asIs .counted j

/-- The members of a value as decoders see them. -/
def Members.given (members : List (String × Json)) : Members :=
  Members.asIs .counted members

/-! ## Passing over given values -/

mutual

theorem Scan.pass_given (j : Json) : (Scan.asIs .counted j).pass = .ok () := by
  cases j with
  | null | bool b | num n | str s => rfl
  | arr items => exact Items.pass_given items
  | obj members => exact Members.pass_given members

theorem Items.pass_given (items : List Json) : (Items.asIs .counted items).pass = .ok () := by
  cases items with
  | nil => rfl
  | cons j items =>
    rw [Items.asIs, Items.pass, Scan.pass_given j, Items.pass_given items]
    rfl

theorem Members.pass_given (members : List (String × Json)) :
    (Members.asIs .counted members).pass = .ok () := by
  cases members with
  | nil => rfl
  | cons m members =>
    obtain ⟨key, j⟩ := m
    rw [Members.asIs, Members.pass, Scan.pass_given j, Members.pass_given members]
    rfl

end

theorem ignore_given (j : Json) : ignore (Scan.given j) = .ok () := by
  rw [ignore, Scan.given, Scan.pass_given j]

/-! ## What is given for a field -/

/-- The keys that a slot takes. -/
def Slot.keys (slot : Slot) : List String :=
  slot.name :: slot.aliases

/-- What the members of an object give for a slot. -/
def Slot.given (slot : Slot) (members : List (String × Json)) : List Json :=
  (members.filter fun m => m.1 ∈ slot.keys).map Prod.snd

/-- No key is taken by two slots, or twice by one. -/
def Apart (slots : List Slot) : Prop :=
  (slots.flatMap Slot.keys).Nodup

instance (slots : List Slot) : Decidable (Apart slots) :=
  inferInstanceAs (Decidable (slots.flatMap Slot.keys).Nodup)

section
variable {slots : List Slot} {slot : Slot} {key : String}

theorem Apart.eq_of_mem_keys (h : Apart slots) {slot' : Slot} (hslot : slot ∈ slots)
    (hslot' : slot' ∈ slots) (hkey : key ∈ slot.keys) (hkey' : key ∈ slot'.keys) :
    slot = slot' := by
  by_contra hne
  have hdisjoint := (List.nodup_flatMap.mp h).2
  have hsymm : Std.Symm (Function.onFun List.Disjoint Slot.keys) :=
    ⟨fun _ _ hd _ hkey hkey' => hd hkey' hkey⟩
  exact hdisjoint.forall hslot hslot' hne hkey hkey'

theorem takes_iff : (slot.name == key || slot.aliases.contains key) = true ↔ key ∈ slot.keys := by
  rw [Bool.or_eq_true, beq_iff_eq, List.contains_iff_mem, Slot.keys, List.mem_cons,
    eq_comm (a := key)]

theorem slotOf?_eq_none (h : slotOf? slots key = none) (hslot : slot ∈ slots) :
    key ∉ slot.keys :=
  fun hkey => List.find?_eq_none.mp h slot hslot (takes_iff.mpr hkey)

theorem mem_of_slotOf? (h : slotOf? slots key = some slot) : slot ∈ slots ∧ key ∈ slot.keys := by
  have htakes := List.find?_some h
  exact ⟨List.mem_of_find?_eq_some h, takes_iff.mp htakes⟩

theorem given_cons_of_mem {members : List (String × Json)} {j : Json} (h : key ∈ slot.keys) :
    slot.given ((key, j) :: members) = j :: slot.given members := by
  simp [Slot.given, h]

theorem given_cons_of_notMem {members : List (String × Json)} {j : Json} (h : key ∉ slot.keys) :
    slot.given ((key, j) :: members) = slot.given members := by
  simp [Slot.given, h]

/-! ## Opening objects -/

/-- What is given for the slots of a record can be taken, after some of them have been filled: each
value passes its check, and no slot is filled twice. -/
def Fillable (slots : List Slot) (seen : List String) (members : List (String × Json)) : Prop :=
  ∀ slot ∈ slots, (∀ j ∈ slot.given members, slot.check (Scan.given j) = .ok ()) ∧
    (slot.given members).length ≤ if slot.name ∈ seen then 0 else 1

theorem fillable_cons_of_notMem {seen : List String} {members : List (String × Json)} {j : Json}
    (h : ∀ slot ∈ slots, key ∉ slot.keys) :
    Fillable slots seen ((key, j) :: members) ↔ Fillable slots seen members := by
  refine forall_congr' fun slot => forall_congr' fun hslot => ?_
  rw [given_cons_of_notMem (h slot hslot)]

theorem fillable_cons_of_mem (hapart : Apart slots) {seen : List String}
    {members : List (String × Json)} {j : Json} (hslot : slot ∈ slots) (hkey : key ∈ slot.keys) :
    Fillable slots seen ((key, j) :: members) ↔
      slot.name ∉ seen ∧ slot.check (Scan.given j) = .ok () ∧
        Fillable slots (slot.name :: seen) members := by
  have hother {slot' : Slot} (hslot' : slot' ∈ slots) (hne : slot' ≠ slot) :
      key ∉ slot'.keys ∧ slot'.name ≠ slot.name := by
    have hname : slot'.name ∈ slot'.keys := List.mem_cons_self
    refine ⟨fun hkey' => hne (hapart.eq_of_mem_keys hslot' hslot hkey' hkey), fun heq => ?_⟩
    exact hne (hapart.eq_of_mem_keys hslot' hslot hname (heq ▸ List.mem_cons_self))
  constructor
  · intro h
    obtain ⟨hcheck, hlength⟩ := h slot hslot
    rw [given_cons_of_mem hkey] at hcheck hlength
    have hseen : slot.name ∉ seen := by
      intro hmem
      rw [if_pos hmem] at hlength
      exact absurd hlength (by simp)
    rw [if_neg hseen] at hlength
    refine ⟨hseen, hcheck j List.mem_cons_self, fun slot' hslot' => ?_⟩
    by_cases heq : slot' = slot
    · subst heq
      refine ⟨fun i hi => hcheck i (List.mem_cons_of_mem j hi), ?_⟩
      rw [if_pos List.mem_cons_self]
      exact Nat.le_of_succ_le_succ hlength
    · obtain ⟨hkey', hname⟩ := hother hslot' heq
      obtain ⟨hcheck', hlength'⟩ := h slot' hslot'
      rw [given_cons_of_notMem hkey'] at hcheck' hlength'
      refine ⟨hcheck', ?_⟩
      simpa only [List.mem_cons, hname, false_or] using hlength'
  · rintro ⟨hseen, hcheck, h⟩ slot' hslot'
    obtain ⟨hcheck', hlength'⟩ := h slot' hslot'
    by_cases heq : slot' = slot
    · subst heq
      rw [if_pos List.mem_cons_self] at hlength'
      rw [given_cons_of_mem hkey, if_neg hseen]
      exact ⟨List.forall_mem_cons.mpr ⟨hcheck, hcheck'⟩, Nat.succ_le_succ hlength'⟩
    · obtain ⟨hkey', hname⟩ := hother hslot' heq
      rw [given_cons_of_notMem hkey']
      refine ⟨hcheck', ?_⟩
      simpa only [List.mem_cons, hname, false_or] using hlength'

/-- **An object opens** exactly when what it gives for the fields can be taken. -/
theorem openMembers_ok_iff (hapart : Apart slots) (seen : List String)
    (members : List (String × Json)) :
    (∃ values, openMembers slots seen (Members.given members) = .ok values) ↔
      Fillable slots seen members := by
  induction members generalizing seen with
  | nil =>
    refine iff_of_true ⟨[], rfl⟩ fun slot _ => ⟨fun j hj => absurd hj List.not_mem_nil, ?_⟩
    exact Nat.zero_le _
  | cons m members ih =>
    obtain ⟨key, j⟩ := m
    rw [Members.given, Members.asIs, openMembers]
    cases hslot : slotOf? slots key with
    | none =>
      rw [fillable_cons_of_notMem fun slot => slotOf?_eq_none hslot, ← ih]
      dsimp only
      rw [← Scan.given, ignore_given]
      rfl
    | some slot =>
      obtain ⟨hmem, hkey⟩ := mem_of_slotOf? hslot
      rw [fillable_cons_of_mem hapart hmem hkey, ← ih]
      dsimp only
      by_cases hseen : slot.name ∈ seen
      · rw [if_pos (List.contains_iff_mem.mpr hseen)]
        refine iff_of_false ?_ fun h => h.1 hseen
        rintro ⟨values, ⟨⟩⟩
      · rw [if_neg (mt List.contains_iff_mem.mp hseen), exists_bind_eq_ok_iff]
        constructor
        · rintro ⟨u, hcheck, h⟩
          obtain ⟨values, hvalues, -⟩ := exists_bind_eq_ok_iff.mp h
          exact ⟨hseen, hcheck, values, hvalues⟩
        · rintro ⟨-, hcheck, values, hvalues⟩
          exact ⟨(), hcheck, exists_bind_eq_ok_iff.mpr ⟨values, hvalues, _, rfl⟩⟩

/-- An opened object holds the value that is given for a field. -/
theorem lookup_openMembers (hapart : Apart slots) {seen : List String}
    {members : List (String × Json)} {values : List (String × Scan)}
    (h : openMembers slots seen (Members.given members) = .ok values) (hslot : slot ∈ slots) :
    values.lookup slot.name = (slot.given members).head?.map Scan.given := by
  induction members generalizing seen values with
  | nil =>
    cases h
    rfl
  | cons m members ih =>
    obtain ⟨key, j⟩ := m
    rw [Members.given, Members.asIs, openMembers] at h
    cases hslot' : slotOf? slots key with
    | none =>
      rw [hslot'] at h
      dsimp only at h
      rw [← Scan.given, ignore_given] at h
      rw [given_cons_of_notMem (slotOf?_eq_none hslot' hslot)]
      exact ih h
    | some slot' =>
      obtain ⟨hmem, hkey⟩ := mem_of_slotOf? hslot'
      rw [hslot'] at h
      dsimp only at h
      split at h
      · cases h
      obtain ⟨u, -, h⟩ := bind_eq_ok_iff.mp h
      obtain ⟨values', hvalues, ⟨⟩⟩ := bind_eq_ok_iff.mp h
      by_cases heq : slot = slot'
      · subst heq
        rw [given_cons_of_mem hkey, List.lookup_cons_self]
        rfl
      · have hname : (slot.name == slot'.name) = false := by
          rw [beq_eq_false_iff_ne]
          intro hname
          have hkeys : slot.name ∈ slot'.keys := hname ▸ List.mem_cons_self
          exact heq (hapart.eq_of_mem_keys hslot hmem List.mem_cons_self hkeys)
        have hnot : key ∉ slot.keys := fun hkey' =>
          heq (hapart.eq_of_mem_keys hslot hmem hkey' hkey)
        rw [given_cons_of_notMem hnot, List.lookup_cons, hname]
        exact ih hvalues

end

/-! ## Records -/

/-- A field can be filled from the members of an object: what is given for it decodes and is given
once at most, or it has a default. -/
structure Field.Fits {α : Type} (f : Field α) (members : List (String × Json)) : Prop where
  /-- What is given decodes. -/
  decodes : ∀ j ∈ f.slot.given members, ∃ a, f.decode (Scan.given j) = .ok a
  /-- It is given once at most. -/
  once : (f.slot.given members).length ≤ 1
  /-- A field that is not given has a default. -/
  default_of_absent : f.slot.given members = [] → f.default?.isSome

/-- A field has a value by the members of an object: what is given for it decodes as that and is
given once at most, or it is the default. -/
structure Field.Has {α : Type} (f : Field α) (members : List (String × Json)) (a : α) : Prop where
  /-- What is given decodes as the value. -/
  decodes : ∀ j ∈ f.slot.given members, f.decode (Scan.given j) = .ok a
  /-- It is given once at most. -/
  once : (f.slot.given members).length ≤ 1
  /-- What is not given is the default. -/
  default_of_absent : f.slot.given members = [] → f.default? = some a

/-- A field, whatever the type of its values is. -/
structure AnyField where
  /-- The type of its values. -/
  Value : Type
  /-- The field. -/
  field : Field Value

section
variable {α : Type} {f : Field α} {members : List (String × Json)}

theorem Field.fits_iff_exists_has : f.Fits members ↔ ∃ a, f.Has members a := by
  constructor
  · rintro ⟨hdecodes, honce, hdefault⟩
    cases hgiven : f.slot.given members with
    | nil =>
      obtain ⟨a, ha⟩ := Option.isSome_iff_exists.mp (hdefault hgiven)
      exact ⟨a, fun j hj => absurd (hgiven ▸ hj) List.not_mem_nil, honce, fun _ => ha⟩
    | cons j js =>
      obtain ⟨a, ha⟩ := hdecodes j (hgiven ▸ List.mem_cons_self)
      have hone : js = [] := by
        rw [hgiven, List.length_cons] at honce
        exact List.eq_nil_of_length_eq_zero (by omega)
      refine ⟨a, fun i hi => ?_, honce, fun habsent => ?_⟩
      · rw [hgiven, hone, List.mem_singleton] at hi
        exact hi ▸ ha
      · rw [hgiven] at habsent
        cases habsent
  · rintro ⟨a, hdecodes, honce, hdefault⟩
    exact ⟨fun j hj => ⟨a, hdecodes j hj⟩, honce, fun habsent => by rw [hdefault habsent]; rfl⟩

theorem slot_check_ok_iff {s : Scan} : f.slot.check s = .ok () ↔ ∃ a, f.decode s = .ok a := by
  show (f.decode s >>= fun _ => pure ()) = _ ↔ _
  rw [bind_eq_ok_iff]
  constructor
  · rintro ⟨a, ha, -⟩
    exact ⟨a, ha⟩
  · rintro ⟨a, ha⟩
    exact ⟨a, ha, rfl⟩

/-- The value of a field of a record that was opened by name. -/
theorem get_of_openMembers {slots : List Slot} (hapart : Apart slots)
    {values : List (String × Scan)} (h : openMembers slots [] (Members.given members) = .ok values)
    (hf : f.slot ∈ slots) :
    (Opened.mk values .missingField).get f =
      match f.slot.given members, f.default? with
      | j :: _, _ => f.decode (Scan.given j)
      | [], some a => .ok a
      | [], none => .error (.missingField f.name) := by
  have hlookup := lookup_openMembers hapart h hf
  rw [Opened.get]
  dsimp only
  rw [← show f.slot.name = f.name from rfl, hlookup]
  cases f.slot.given members with
  | nil => cases f.default? <;> rfl
  | cons j js => rfl

/-- An object is opened as a record when its members are. -/
theorem openRecord_given_ok_iff {title : String} {slots : List Slot} {r : Opened} :
    openRecord title slots (Scan.given (.obj members)) = .ok r ↔
      ∃ values, openMembers slots [] (Members.given members) = .ok values ∧
        Opened.mk values .missingField = r := by
  show (openMembers slots [] (Members.given members) >>=
    fun values => pure (Opened.mk values .missingField)) = .ok r ↔ _
  rw [bind_eq_ok_iff]
  exact exists_congr fun values => and_congr_right fun _ => iff_of_eq (Except.ok.injEq _ _)

/-- An opened record has the values that its members give. -/
theorem get_ok_iff {slots : List Slot} (hapart : Apart slots) {values : List (String × Scan)}
    (h : openMembers slots [] (Members.given members) = .ok values) (hf : f.slot ∈ slots) {a : α} :
    (Opened.mk values .missingField).get f = .ok a ↔ f.Has members a := by
  obtain ⟨-, hlength⟩ := (openMembers_ok_iff hapart [] members).mp ⟨values, h⟩ _ hf
  rw [if_neg List.not_mem_nil] at hlength
  rw [get_of_openMembers hapart h hf]
  constructor
  · intro hget
    refine ⟨fun j hj => ?_, hlength, fun habsent => ?_⟩
    · obtain ⟨i, hi⟩ := List.length_eq_one_iff.mp
        (Nat.le_antisymm hlength (List.length_pos_of_mem hj))
      rw [hi] at hj hget
      obtain rfl := List.mem_singleton.mp hj
      exact hget
    · rw [habsent] at hget
      cases hdefault : f.default? with
      | none =>
        rw [hdefault] at hget
        cases hget
      | some b =>
        rw [hdefault] at hget
        exact congrArg some (Except.ok.inj hget)
  · rintro ⟨hdecodes, -, hdefault⟩
    cases hgiven : f.slot.given members with
    | cons j js => exact hdecodes j (hgiven ▸ List.mem_cons_self)
    | nil => rw [hdefault hgiven]

theorem fillable_of_fits {fields : List AnyField} (h : ∀ f ∈ fields, f.field.Fits members) :
    Fillable (fields.map fun f => f.field.slot) [] members := by
  intro slot hslot
  obtain ⟨f, hf, rfl⟩ := List.mem_map.mp hslot
  exact ⟨fun j hj => slot_check_ok_iff.mpr ((h f hf).decodes j hj), (h f hf).once⟩

/-- **A record can be filled** exactly when each of its fields can be. -/
theorem openRecord_fits_iff (title : String) (fields : List AnyField)
    (hapart : Apart (fields.map fun f => f.field.slot)) (members : List (String × Json)) :
    (∃ r, openRecord title (fields.map fun f => f.field.slot) (Scan.given (.obj members)) = .ok r ∧
      ∀ f ∈ fields, ∃ a, r.get f.field = .ok a) ↔ ∀ f ∈ fields, f.field.Fits members := by
  have hmem {f : AnyField} (hf : f ∈ fields) :
      f.field.slot ∈ fields.map fun f => f.field.slot := List.mem_map_of_mem hf
  constructor
  · rintro ⟨r, hr, hget⟩ f hf
    obtain ⟨values, hvalues, rfl⟩ := openRecord_given_ok_iff.mp hr
    obtain ⟨a, ha⟩ := hget f hf
    exact Field.fits_iff_exists_has.mpr ⟨a, (get_ok_iff hapart hvalues (hmem hf)).mp ha⟩
  · intro h
    obtain ⟨values, hvalues⟩ := (openMembers_ok_iff hapart [] members).mpr (fillable_of_fits h)
    refine ⟨_, openRecord_given_ok_iff.mpr ⟨values, hvalues, rfl⟩, fun f hf => ?_⟩
    obtain ⟨a, ha⟩ := Field.fits_iff_exists_has.mp (h f hf)
    exact ⟨a, (get_ok_iff hapart hvalues (hmem hf)).mpr ha⟩

/-- A decoder that opens a record, and then gets the value of each field, takes an object exactly
when each of the fields can be filled. -/
theorem decodes_record_iff {β : Type} (title : String) (fields : List AnyField)
    (hapart : Apart (fields.map fun f => f.field.slot)) {collect : Opened → Except DecodeError β}
    (hcollect : ∀ r, (∃ b, collect r = .ok b) ↔ ∀ f ∈ fields, ∃ a, r.get f.field = .ok a)
    (members : List (String × Json)) :
    (∃ b, openRecord title (fields.map fun f => f.field.slot) (Scan.given (.obj members)) >>=
      collect = .ok b) ↔ ∀ f ∈ fields, f.field.Fits members := by
  rw [exists_bind_eq_ok_iff, ← openRecord_fits_iff title fields hapart members]
  exact exists_congr fun r => and_congr_right fun _ => hcollect r

end

/-! ## Fields by their keys -/

/-- What the members of an object hold under a key decodes. -/
def DecodesAt {α : Type} (d : Decoder α) (key : String) (members : List (String × Json)) : Prop :=
  ∀ j, (key, j) ∈ members → ∃ a, d (Scan.given j) = .ok a

section
variable {slot : Slot} {members : List (String × Json)}

theorem mem_given_iff {j : Json} :
    j ∈ slot.given members ↔ ∃ key ∈ slot.keys, (key, j) ∈ members := by
  simp only [Slot.given, List.mem_map, List.mem_filter, decide_eq_true_eq, Prod.exists,
    exists_eq_right]
  exact exists_congr fun key => and_comm

theorem given_eq_nil_iff :
    slot.given members = [] ↔ ∀ key ∈ slot.keys, key ∉ members.map Prod.fst := by
  rw [List.eq_nil_iff_forall_not_mem]
  constructor
  · intro h key hkey hmem
    obtain ⟨⟨_, j⟩, hm, rfl⟩ := List.mem_map.mp hmem
    exact h j (mem_given_iff.mpr ⟨_, hkey, hm⟩)
  · intro h j hj
    obtain ⟨key, hkey, hm⟩ := mem_given_iff.mp hj
    exact h key hkey (List.mem_map_of_mem hm)

/-- A list without repetitions has one item at most when all its items are equal. -/
theorem length_le_one_iff {keys : List String} (h : keys.Nodup) :
    keys.length ≤ 1 ↔ ∀ key ∈ keys, ∀ key' ∈ keys, key = key' := by
  match keys, h with
  | [], _ => simp
  | [key], _ => simp
  | key :: key' :: rest, h =>
    have hne : key ≠ key' := fun heq => (List.nodup_cons.mp h).1 (heq ▸ List.mem_cons_self)
    refine iff_of_false (by simp) fun hall => hne ?_
    exact hall key List.mem_cons_self key' (List.mem_cons_of_mem key List.mem_cons_self)

/-- An object without equal keys gives a field once at most when it has one of its keys at most. -/
theorem length_given_le_one_iff (hnodup : (members.map Prod.fst).Nodup) :
    (slot.given members).length ≤ 1 ↔
      ∀ key ∈ slot.keys, ∀ key' ∈ slot.keys, key ∈ members.map Prod.fst →
        key' ∈ members.map Prod.fst → key = key' := by
  have hkeys : ((members.filter fun m => m.1 ∈ slot.keys).map Prod.fst).Nodup :=
    hnodup.sublist (List.filter_sublist.map Prod.fst)
  have hmem {key : String} : key ∈ (members.filter fun m => m.1 ∈ slot.keys).map Prod.fst ↔
      key ∈ slot.keys ∧ key ∈ members.map Prod.fst := by
    simp only [List.mem_map, List.mem_filter, decide_eq_true_eq, and_assoc]
    constructor
    · rintro ⟨m, hm, hkey, rfl⟩
      exact ⟨hkey, m, hm, rfl⟩
    · rintro ⟨hkey, m, hm, rfl⟩
      exact ⟨m, hm, hkey, rfl⟩
  rw [Slot.given, List.length_map, ← List.length_map (f := Prod.fst), length_le_one_iff hkeys]
  simp only [hmem, and_imp]
  constructor
  · exact fun h key hkey key' hkey' hthere hthere' => h key hkey hthere key' hkey' hthere'
  · exact fun h key hkey hthere key' hkey' hthere' => h key hkey key' hkey' hthere hthere'

/-- A field by its keys. -/
theorem Field.fits_iff {α : Type} {f : Field α} (hnodup : (members.map Prod.fst).Nodup) :
    f.Fits members ↔
      (∀ key ∈ f.slot.keys, DecodesAt f.decode key members) ∧
      (∀ key ∈ f.slot.keys, ∀ key' ∈ f.slot.keys, key ∈ members.map Prod.fst →
        key' ∈ members.map Prod.fst → key = key') ∧
      (f.default?.isSome ∨ ∃ key ∈ f.slot.keys, key ∈ members.map Prod.fst) := by
  rw [← length_given_le_one_iff hnodup]
  constructor
  · rintro ⟨hdecodes, honce, hdefault⟩
    refine ⟨fun key hkey j hj => hdecodes j (mem_given_iff.mpr ⟨key, hkey, hj⟩), honce, ?_⟩
    by_cases hnil : f.slot.given members = []
    · exact .inl (hdefault hnil)
    · rw [given_eq_nil_iff] at hnil
      push Not at hnil
      exact .inr hnil
  · rintro ⟨hdecodes, honce, hdefault⟩
    refine ⟨fun j hj => ?_, honce, fun hnil => ?_⟩
    · obtain ⟨key, hkey, hm⟩ := mem_given_iff.mp hj
      exact hdecodes key hkey j hm
    · refine hdefault.resolve_right ?_
      rintro ⟨key, hkey, hthere⟩
      exact given_eq_nil_iff.mp hnil key hkey hthere

end

section
variable {α : Type} {name other : String} {d : Decoder α} {a : α} {members : List (String × Json)}
variable (hnodup : (members.map Prod.fst).Nodup)
include hnodup

theorem fits_required :
    (Field.required name d).Fits members ↔
      DecodesAt d name members ∧ name ∈ members.map Prod.fst := by
  rw [Field.fits_iff hnodup]
  simp [Field.required, Field.slot, Slot.keys]

theorem fits_withDefault :
    (Field.withDefault name d a).Fits members ↔ DecodesAt d name members := by
  rw [Field.fits_iff hnodup]
  simp [Field.withDefault, Field.slot, Slot.keys]

theorem fits_required_orNamed (hne : name ≠ other) :
    ((Field.required name d).orNamed other).Fits members ↔
      (DecodesAt d name members ∧ DecodesAt d other members) ∧
      ¬(name ∈ members.map Prod.fst ∧ other ∈ members.map Prod.fst) ∧
      (name ∈ members.map Prod.fst ∨ other ∈ members.map Prod.fst) := by
  rw [Field.fits_iff hnodup]
  simp [Field.required, Field.orNamed, Field.slot, Slot.keys, hne, hne.symm]
  exact fun _ _ _ h x hx y hy => h y hy x hx

theorem fits_withDefault_orNamed (hne : name ≠ other) :
    ((Field.withDefault name d a).orNamed other).Fits members ↔
      (DecodesAt d name members ∧ DecodesAt d other members) ∧
      ¬(name ∈ members.map Prod.fst ∧ other ∈ members.map Prod.fst) := by
  rw [Field.fits_iff hnodup]
  simp [Field.withDefault, Field.orNamed, Field.slot, Slot.keys, hne, hne.symm]
  exact fun _ _ h x hx y hy => h y hy x hx

end

end NoteTools.Json
