import NoteTools.Proofs.RequestForms
import NoteTools.Proofs.ValueDecoding

/-!
# What decoders read of given values

A given object is read in the order of its keys, and of several members under one key the last one
counts. So what is read of it depends on what stands last under each key only: a record is opened
when each of its fields is read from the keys that it takes, whatever other members there are.

Main definitions:

* `last?`: what stands last under a key;
* `Field.Reads`: what is read for a field of the members of an object.

Results:

* `mem_sortMembers_iff`: which members are left when they are in order;
* `opens_ofJson_iff`: an object is opened exactly when each field is read;
* `list_ofJson_iff`, `optional_ofJson_iff`: when an array and an option are decoded;
* `Criterion.reads_of_decoded`, `Scope.reads_of_decoded`, `SearchRequest.reads_of_decoded`: what is
  read of a criterion, of a scope and of a request to search.
-/

namespace NoteTools

namespace Json

/-! ## The last member under a key -/

/-- What the members of an object hold under a key: the last one of them counts. -/
def last? (key : String) (members : List (String × Json)) : Option Json :=
  members.reverse.lookup key

section
variable {key : String} {members : List (String × Json)}

theorem lookup_cons_eq_ite {α : Type} (m : String × α) (members : List (String × α)) :
    (m :: members).lookup key = if key = m.1 then some m.2 else members.lookup key := by
  by_cases h : key = m.1
  · subst h
    rw [List.lookup_cons_self, if_pos rfl]
  · rw [List.lookup_cons, beq_eq_false_iff_ne.mpr h, if_neg h]

theorem last?_cons (m : String × Json) :
    last? key (m :: members) = (last? key members).or (if key = m.1 then some m.2 else none) := by
  rw [last?, List.reverse_cons, List.lookup_append, lookup_cons_eq_ite, last?, List.lookup_nil]

theorem last?_eq_none_iff : last? key members = none ↔ key ∉ members.map Prod.fst := by
  rw [last?, List.lookup_eq_none_iff, List.mem_map]
  simp only [List.mem_reverse, bne_iff_ne]
  constructor
  · rintro h ⟨m, hm, rfl⟩
    exact h m hm rfl
  · exact fun h m hm heq => h ⟨m, hm, heq.symm⟩

theorem mem_keys_iff : key ∈ members.map Prod.fst ↔ ∃ j, last? key members = some j := by
  rw [← not_iff_not, ← last?_eq_none_iff, Option.eq_none_iff_forall_ne_some, not_exists]

/-! ### Members in order -/

theorem lookup_putMember (key' : String) (value : Json) :
    (putMember key' value members).lookup key =
      if key = key' then some value else members.lookup key := by
  induction members with
  | nil => rw [putMember, lookup_cons_eq_ite]
  | cons m members ih =>
    rw [putMember]
    split
    next heq =>
      simp only [lookup_cons_eq_ite, ← heq]
      by_cases h : key = key'
      · rw [if_pos h, if_pos h]
      · rw [if_neg h, if_neg h, if_neg h]
    next hne =>
      split
      · rw [lookup_cons_eq_ite]
      · simp only [lookup_cons_eq_ite, ih]
        by_cases h : key = key'
        · rw [if_pos h, if_pos h, if_neg fun heq => hne (h.symm.trans heq)]
        · rw [if_neg h, if_neg h]

/-- Putting members in order one by one leaves the last one under each key. -/
theorem lookup_foldl_putMember (sorted : List (String × Json)) :
    (members.foldl (fun sorted (key, value) => putMember key value sorted) sorted).lookup key =
      (last? key members).or (sorted.lookup key) := by
  induction members generalizing sorted with
  | nil => rfl
  | cons m members ih =>
    rw [List.foldl_cons, ih, lookup_putMember, last?_cons]
    cases last? key members with
    | some j => rfl
    | none => by_cases h : key = m.1 <;> simp [h]

/-- **Members in order** are the last ones under their keys. -/
theorem mem_sortMembers_iff {j : Json} :
    (key, j) ∈ sortMembers members ↔ last? key members = some j := by
  have hlookup : (sortMembers members).lookup key = last? key members := by
    rw [sortMembers, lookup_foldl_putMember, List.lookup_nil, Option.or_none]
  rw [← hlookup]
  constructor
  · exact lookup_of_mem (ordered_sortMembers members).nodup
  · intro h
    obtain ⟨front, back, hsplit, -⟩ := List.lookup_eq_some_iff.mp h
    rw [hsplit]
    exact List.mem_append_right front List.mem_cons_self

theorem last?_sortedMembers :
    last? key (sortedMembers members) = (last? key members).map sorted := by
  induction members with
  | nil => rfl
  | cons m members ih =>
    rw [sortedMembers, last?_cons, last?_cons, ih]
    cases last? key members with
    | some j => rfl
    | none => by_cases h : key = m.1 <;> simp [h]

end

/-! ## Fields -/

/-- A field is read from the members of an object as a value: one of its keys stands there at most,
what stands last under it decodes as the value, and without it the value is the default. -/
structure Field.Reads {α : Type} (f : Field α) (members : List (String × Json)) (a : α) : Prop where
  /-- One of its keys stands there at most. -/
  once : ∀ key ∈ f.slot.keys, ∀ key' ∈ f.slot.keys, key ∈ members.map Prod.fst →
    key' ∈ members.map Prod.fst → key = key'
  /-- What stands last decodes as the value. -/
  decodes : ∀ key ∈ f.slot.keys, ∀ j, last? key members = some j → decodeValue f.decode j = .ok a
  /-- What does not stand there is the default. -/
  default_of_absent : (∀ key ∈ f.slot.keys, key ∉ members.map Prod.fst) → f.default? = some a

section
variable {α : Type} {f : Field α} {members : List (String × Json)} {a : α}

/-- What a field has by the members in order is what it reads. -/
theorem Field.has_sorted_iff :
    f.Has (sortMembers (sortedMembers members)) a ↔ f.Reads members a := by
  have hmem {key : String} {j : Json} :
      (key, j) ∈ sortMembers (sortedMembers members) ↔
        ∃ i, last? key members = some i ∧ sorted i = j := by
    rw [mem_sortMembers_iff, last?_sortedMembers, Option.map_eq_some_iff]
  have hkeys {key : String} :
      key ∈ (sortMembers (sortedMembers members)).map Prod.fst ↔ key ∈ members.map Prod.fst := by
    rw [List.mem_map, mem_keys_iff]
    constructor
    · rintro ⟨⟨_, j⟩, hj, rfl⟩
      obtain ⟨i, hi, -⟩ := hmem.mp hj
      exact ⟨i, hi⟩
    · rintro ⟨i, hi⟩
      exact ⟨(key, sorted i), hmem.mpr ⟨i, hi, rfl⟩, rfl⟩
  have honce : (f.slot.given (sortMembers (sortedMembers members))).length ≤ 1 ↔ _ :=
    length_given_le_one_iff (ordered_sortMembers _).nodup
  have habsent : f.slot.given (sortMembers (sortedMembers members)) = [] ↔ _ := given_eq_nil_iff
  simp only [hkeys] at honce habsent
  constructor
  · rintro ⟨hdecodes, hlength, hdefault⟩
    refine ⟨honce.mp hlength, fun key hkey j hj => ?_, fun h => hdefault (habsent.mpr h)⟩
    exact hdecodes _ (mem_given_iff.mpr ⟨key, hkey, hmem.mpr ⟨j, hj, rfl⟩⟩)
  · rintro ⟨hkeys', hdecodes, hdefault⟩
    refine ⟨fun j hj => ?_, honce.mpr hkeys', fun h => hdefault (habsent.mp h)⟩
    obtain ⟨key, hkey, hm⟩ := mem_given_iff.mp hj
    obtain ⟨i, hi, rfl⟩ := hmem.mp hm
    exact hdecodes key hkey i hi

end

/-! ## Records -/

section
variable {title : String} {fields : List Filled}

/-- **A given object is opened** exactly when each of its fields is read. -/
theorem opens_ofJson_iff (hapart : Apart (fields.map fun f => f.field.slot))
    (members : List (String × Json)) :
    Opens title fields (Scan.ofJson (.obj members)) ↔
      ∀ f ∈ fields, f.field.Reads members f.value := by
  have hmem {f : Filled} (hf : f ∈ fields) :
      f.field.slot ∈ fields.map fun f => f.field.slot := List.mem_map_of_mem hf
  simp only [← Field.has_sorted_iff]
  constructor
  · rintro ⟨r, hr, hget⟩ f hf
    obtain ⟨values, hvalues, rfl⟩ := openRecord_given_ok_iff.mp hr
    exact (get_ok_iff hapart hvalues (hmem hf)).mp (hget f hf)
  · intro h
    have hfits : ∀ f ∈ fields.map Filled.toAnyField,
        f.field.Fits (sortMembers (sortedMembers members)) := by
      rw [List.forall_mem_map]
      exact fun f hf => Field.fits_iff_exists_has.mpr ⟨f.value, h f hf⟩
    have hfillable := fillable_of_fits hfits
    rw [List.map_map] at hfillable
    obtain ⟨values, hvalues⟩ := (openMembers_ok_iff hapart [] _).mpr hfillable
    refine ⟨_, openRecord_given_ok_iff.mpr ⟨values, hvalues, rfl⟩, fun f hf => ?_⟩
    exact (get_ok_iff hapart hvalues (hmem hf)).mpr (h f hf)

/-- A decoder that opens a record, and then gets the value of each field, has opened what it
decodes. -/
theorem opens_of_decodes {β : Type} {s : Scan} {collect : Opened → Except DecodeError β} {b : β}
    (hcollect : ∀ r : Opened, collect r = .ok b → ∀ f ∈ fields, r.get f.field = .ok f.value)
    (h : openRecord title (fields.map fun f => f.field.slot) s >>= collect = .ok b) :
    Opens title fields s := by
  obtain ⟨r, hr, hb⟩ := bind_eq_ok_iff.mp h
  exact ⟨r, hr, hcollect r hb⟩

theorem Layout.reads_of_opens {α : Type} (l : Layout α) {a : α} {members : List (String × Json)}
    (h : Opens l.title (l.filled a) (Scan.ofJson (.obj members))) :
    ∀ f ∈ l.filled a, f.field.Reads members f.value :=
  (opens_ofJson_iff (l.apart a) members).mp h

/-- A value is decoded from an object whose fields are read as it has them. -/
theorem Layout.decode_of_reads {α : Type} (l : Layout α) {a : α} {members : List (String × Json)}
    (h : ∀ f ∈ l.filled a, f.field.Reads members f.value) :
    decodeValue l.decode (.obj members) = .ok a :=
  l.decode_of_opens ((opens_ofJson_iff (l.apart a) members).mpr h)

end

/-! ## Arrays and options -/

/-- **A given array is decoded** exactly when its items are. -/
theorem list_ofJson_iff {α : Type} {d : Decoder α} {items : List Json} {as : List α} :
    decodeValue (Decoder.list d) (.arr items) = .ok as ↔
      List.Forall₂ (fun j a => decodeValue d j = .ok a) items as := by
  show Decoder.items d (Items.asIs .counted (sortedItems items)) = .ok as ↔ _
  induction items generalizing as with
  | nil =>
    rw [List.forall₂_nil_left_iff]
    exact ⟨fun h => (Except.ok.inj h).symm, fun h => h ▸ rfl⟩
  | cons j items ih =>
    rw [sortedItems, Items.asIs, Decoder.items, bind_eq_ok_iff, List.forall₂_cons_left_iff]
    refine exists_congr fun a => ?_
    rw [bind_eq_ok_iff]
    constructor
    · rintro ⟨ha, as, has, ⟨⟩⟩
      exact ⟨as, ha, ih.mp has, rfl⟩
    · rintro ⟨as, ha, has, rfl⟩
      exact ⟨ha, as, ih.mpr has, rfl⟩

/-- A given value is decoded as an option when it is null, or when it is decoded itself. -/
theorem optional_ofJson_iff {α : Type} {d : Decoder α} {j : Json} {o : Option α} :
    decodeValue (Decoder.optional d) j = .ok o ↔
      (j = .null ∧ o = none) ∨ (j ≠ .null ∧ ∃ a, decodeValue d j = .ok a ∧ o = some a) := by
  have hsome (hne : j ≠ .null) :
      decodeValue (Decoder.optional d) j = some <$> decodeValue d j := by
    cases j with
    | null => exact absurd rfl hne
    | bool b | num n | str s | arr items | obj members => rfl
  by_cases hnull : j = .null
  · subst hnull
    rw [or_iff_left fun h => h.1 rfl, and_iff_right rfl]
    exact ⟨fun h => (Except.ok.inj h).symm, fun h => h ▸ rfl⟩
  · rw [hsome hnull, or_iff_right fun h => hnull h.1, and_iff_right hnull]
    cases decodeValue d j with
    | error e => simp [Functor.map, Except.map]
    | ok a => simp [Functor.map, Except.map, eq_comm]

end Json

open Json

/-! ## Searches -/

section
variable {members : List (String × Json)}

theorem Criterion.reads_of_decoded {c : Criterion}
    (h : decodeValue Criterion.decode (.obj members) = .ok c) :
    ∀ f ∈ Criterion.layout.filled c, f.field.Reads members f.value := by
  refine Criterion.layout.reads_of_opens (opens_of_decodes (fun r hr => ?_) h)
  simp only [bind_eq_ok_iff] at hr
  obtain ⟨_, hproperty, _, hkind, _, hop, _, hvalue, _, hconnector, ⟨⟩⟩ := hr
  simp only [Criterion.layout, List.forall_mem_cons]
  exact ⟨hproperty, hkind, hop, hvalue, hconnector, by simp⟩

theorem Scope.reads_of_decoded {s : Scope}
    (h : decodeValue Scope.decode (.obj members) = .ok s) :
    ∀ f ∈ Scope.layout.filled s, f.field.Reads members f.value := by
  refine Scope.layout.reads_of_opens (opens_of_decodes (fun r hr => ?_) h)
  simp only [bind_eq_ok_iff] at hr
  obtain ⟨_, hkind, _, hreference, ⟨⟩⟩ := hr
  simp only [Scope.layout, List.forall_mem_cons]
  exact ⟨hkind, hreference, by simp⟩

theorem SearchRequest.reads_of_decoded {r : SearchRequest}
    (h : decodeValue SearchRequest.decode (.obj members) = .ok r) :
    ∀ f ∈ SearchRequest.layout.filled r, f.field.Reads members f.value := by
  refine SearchRequest.layout.reads_of_opens (opens_of_decodes (fun r hr => ?_) h)
  simp only [bind_eq_ok_iff] at hr
  obtain ⟨_, htext, _, hcriteria, _, hscope, _, hlimit, _, harchived, ⟨⟩⟩ := hr
  simp only [SearchRequest.layout, List.forall_mem_cons]
  exact ⟨htext, hcriteria, hscope, hlimit, harchived, by simp⟩

end

end NoteTools
