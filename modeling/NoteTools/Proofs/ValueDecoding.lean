import NoteTools.Proofs.RecordDecoding
import NoteTools.Proofs.SchemaMeaning

/-!
# Decoding what a schema accepts

A decoder reads a given value with its members in order, so that no object has two members of one
key. Each form of schema is set against the decoder that stands beside it: the values that the
schema accepts are decoded, or those of them are that have a further property.

Main definitions:

* `Distinct`: no object within a value has two members of one key;
* `At`, `Once`: what an object holds under a key, and under two spellings of a key;
* `Schema.DecodesWhen`: what a decoder asks beyond a schema.

Results:

* `distinct_sorted`: the members of a given value are distinct once they are in order;
* `Schema.decodesWhen_text`, `Schema.decodesWhen_choices`, `Schema.decodesWhen_truth`,
  `Schema.decodesWhen_whole`, `Schema.DecodesWhen.list`, `Schema.DecodesWhen.optional`,
  `Schema.DecodesWhen.nonNull`: what decoders ask, by the form of the schema.
-/

namespace NoteTools

namespace Json

/-! ## Distinct members -/

mutual

/-- No object within a value has two members of one key. -/
def Distinct : Json → Prop
  | .arr items => DistinctItems items
  | .obj members => (members.map Prod.fst).Nodup ∧ DistinctMembers members
  | _ => True

/-- The items of an array are distinct within. -/
def DistinctItems : List Json → Prop
  | [] => True
  | j :: items => Distinct j ∧ DistinctItems items

/-- The members of an object are distinct within. -/
def DistinctMembers : List (String × Json) → Prop
  | [] => True
  | m :: members => Distinct m.2 ∧ DistinctMembers members

end

theorem distinctItems_iff {items : List Json} : DistinctItems items ↔ ∀ j ∈ items, Distinct j := by
  induction items with
  | nil => simp [DistinctItems]
  | cons j items ih => rw [DistinctItems, ih, List.forall_mem_cons]

theorem distinctMembers_iff {members : List (String × Json)} :
    DistinctMembers members ↔ ∀ m ∈ members, Distinct m.2 := by
  induction members with
  | nil => simp [DistinctMembers]
  | cons m members ih => rw [DistinctMembers, ih, List.forall_mem_cons]

theorem mem_putMember {key : String} {value : Json} {members : List (String × Json)}
    {m : String × Json} (h : m ∈ putMember key value members) : m = (key, value) ∨ m ∈ members := by
  induction members with
  | nil => exact .inl (List.mem_singleton.mp h)
  | cons m' members ih =>
    obtain ⟨key', value'⟩ := m'
    rw [putMember] at h
    split at h
    · obtain h | h := List.mem_cons.mp h
      · exact .inl h
      · exact .inr (List.mem_cons_of_mem _ h)
    split at h
    · exact List.mem_cons.mp h
    · obtain h | h := List.mem_cons.mp h
      · exact .inr (h ▸ List.mem_cons_self)
      · exact (ih h).imp_right (List.mem_cons_of_mem _)

/-- The keys of members that are in order. -/
def Ordered (members : List (String × Json)) : Prop :=
  members.Pairwise fun m m' => m.1 < m'.1

theorem Ordered.putMember {members : List (String × Json)} (h : Ordered members) (key : String)
    (value : Json) : Ordered (putMember key value members) := by
  induction members with
  | nil => exact List.pairwise_singleton _ _
  | cons m members ih =>
    obtain ⟨key', value'⟩ := m
    obtain ⟨hbelow, hrest⟩ := List.pairwise_cons.mp h
    rw [Json.putMember]
    split
    next heq =>
      subst heq
      exact List.pairwise_cons.mpr ⟨hbelow, hrest⟩
    next hne =>
      split
      next hlt =>
        refine List.pairwise_cons.mpr ⟨fun m hm => ?_, h⟩
        obtain rfl | hm := List.mem_cons.mp hm
        · exact hlt
        · exact String.lt_trans hlt (hbelow m hm)
      next hnot =>
        refine List.pairwise_cons.mpr ⟨fun m hm => ?_, ih hrest⟩
        obtain rfl | hm := mem_putMember hm
        · exact String.not_le.mp fun hle =>
            hne (String.le_antisymm (String.not_lt.mp hnot) hle).symm
        · exact hbelow m hm

/-- Members are in order when they are put there one by one, and none of them is new. -/
theorem foldl_putMember (members : List (String × Json)) {sorted : List (String × Json)}
    (h : Ordered sorted) :
    Ordered (members.foldl (fun sorted (key, value) => putMember key value sorted) sorted) ∧
      ∀ m ∈ members.foldl (fun sorted (key, value) => putMember key value sorted) sorted,
        m ∈ sorted ∨ m ∈ members := by
  induction members generalizing sorted with
  | nil => exact ⟨h, fun m hm => .inl hm⟩
  | cons m' members ih =>
    obtain ⟨hordered, hmem⟩ := ih (h.putMember m'.1 m'.2)
    refine ⟨hordered, fun m hm => ?_⟩
    obtain hm | hm := hmem m hm
    · obtain rfl | hm := mem_putMember hm
      · exact .inr List.mem_cons_self
      · exact .inl hm
    · exact .inr (List.mem_cons_of_mem _ hm)

theorem ordered_sortMembers (members : List (String × Json)) : Ordered (sortMembers members) :=
  (foldl_putMember members List.Pairwise.nil).1

theorem mem_of_mem_sortMembers {members : List (String × Json)} {m : String × Json}
    (h : m ∈ sortMembers members) : m ∈ members :=
  ((foldl_putMember members List.Pairwise.nil).2 m h).resolve_left List.not_mem_nil

theorem Ordered.nodup {members : List (String × Json)} (h : Ordered members) :
    (members.map Prod.fst).Nodup := by
  have hne {m m' : String × Json} (hlt : m.1 < m'.1) : m.1 ≠ m'.1 := fun heq =>
    String.lt_irrefl m'.1 (heq ▸ hlt)
  exact List.pairwise_map.mpr (h.imp hne)

mutual

/-- **The members of a given value are distinct** once they are in order. -/
theorem distinct_sorted (j : Json) : Distinct (sorted j) := by
  cases j with
  | null | bool b | num n | str s => trivial
  | arr items => exact distinctItems_sortedItems items
  | obj members =>
    refine ⟨(ordered_sortMembers _).nodup, distinctMembers_iff.mpr fun m hm => ?_⟩
    have hall := distinctMembers_iff.mp (distinctMembers_sortedMembers members)
    exact hall m (mem_of_mem_sortMembers hm)

theorem distinctItems_sortedItems (items : List Json) : DistinctItems (sortedItems items) := by
  cases items with
  | nil => trivial
  | cons j items => exact ⟨distinct_sorted j, distinctItems_sortedItems items⟩

theorem distinctMembers_sortedMembers (members : List (String × Json)) :
    DistinctMembers (sortedMembers members) := by
  cases members with
  | nil => trivial
  | cons m members => exact ⟨distinct_sorted m.2, distinctMembers_sortedMembers members⟩

end

/-! ## Decoders of given values -/

section
variable {α : Type} {d : Decoder α} {j : Json}

theorem text_given_iff : (∃ s, Decoder.text (Scan.given j) = .ok s) ↔ ∃ s, j = .str s := by
  cases j <;> simp [Scan.given, Scan.asIs, Decoder.text]

theorem bool_given_iff : (∃ b, Decoder.bool (Scan.given j) = .ok b) ↔ ∃ b, j = .bool b := by
  cases j <;> simp [Scan.given, Scan.asIs, Decoder.bool]

theorem optional_given_iff :
    (∃ a, Decoder.optional d (Scan.given j) = .ok a) ↔
      j = .null ∨ ∃ a, d (Scan.given j) = .ok a := by
  cases j with
  | null => exact iff_of_true ⟨none, rfl⟩ (.inl rfl)
  | bool b | num n | str s | arr items | obj members =>
    rw [or_iff_right (by simp)]
    exact exists_map_eq_ok_iff

theorem nat32_given_iff :
    (∃ n, Decoder.nat32 (Scan.given j) = .ok n) ↔
      ∃ i : Int, j = .num (.int i) ∧ 0 ≤ i ∧ i ≤ 0xFFFFFFFF := by
  cases j with
  | num n =>
    cases n with
    | int i =>
      by_cases h : 0 ≤ i ∧ i ≤ 0xFFFFFFFF <;>
        simp [Scan.given, Scan.asIs, Decoder.nat32, Decoder.whole, h, Functor.map, Except.map]
    | real x => simp [Scan.given, Scan.asIs, Decoder.nat32, Decoder.whole, Functor.map, Except.map]
  | null | bool b | str s | arr items | obj members =>
    simp [Scan.given, Scan.asIs, Decoder.nat32, Decoder.whole, Functor.map, Except.map]

theorem items_given_iff {items : List Json} :
    (∃ as, Decoder.items d (Items.asIs .counted items) = .ok as) ↔
      ∀ item ∈ items, ∃ a, d (Scan.given item) = .ok a := by
  induction items with
  | nil => simp [Items.asIs, Decoder.items]
  | cons item items ih =>
    rw [Items.asIs, Decoder.items, exists_bind_eq_ok_iff, List.forall_mem_cons, ← ih]
    simp only [exists_bind_eq_ok_iff]
    constructor
    · rintro ⟨a, ha, as, has, -⟩
      exact ⟨⟨a, ha⟩, as, has⟩
    · rintro ⟨⟨a, ha⟩, as, has⟩
      exact ⟨a, ha, as, has, _, rfl⟩

theorem list_given_iff :
    (∃ as, Decoder.list d (Scan.given j) = .ok as) ↔
      ∃ items, j = .arr items ∧ ∀ item ∈ items, ∃ a, d (Scan.given item) = .ok a := by
  cases j with
  | arr items =>
    rw [Scan.given, Scan.asIs, Decoder.list, items_given_iff]
    simp
  | null | bool b | num n | str s | obj members => simp [Scan.given, Scan.asIs, Decoder.list]

theorem variant_given_str {table : List (String × α)} {name : String}
    (h : name ∈ table.map Prod.fst) :
    ∃ a, Decoder.variant table (Scan.given (.str name)) = .ok a := by
  have hlookup : (table.lookup name).isSome := by
    rw [List.lookup_isSome_iff]
    obtain ⟨m, hm, hname⟩ := List.mem_map.mp h
    exact ⟨m, hm, hname ▸ beq_self_eq_true _⟩
  obtain ⟨a, ha⟩ := Option.isSome_iff_exists.mp hlookup
  refine ⟨a, ?_⟩
  show Decoder.variantOf table name = .ok a
  rw [Decoder.variantOf, ha]

end

/-! ## Objects by their keys -/

/-- What an object holds under a key, if anything, has a property. -/
def At (key : String) (P : Json → Prop) (j : Json) : Prop :=
  ∀ value, (key, value) ∈ j.members → P value

theorem at_true (key : String) (j : Json) : At key (fun _ => True) j :=
  fun _ _ => trivial

/-- An object does not have both spellings of a key. -/
def Once (key other : String) (j : Json) : Prop :=
  ¬(key ∈ j.keys ∧ other ∈ j.keys)

end Json

/-! ## Schemas and decoders -/

namespace Schema

open Json

/-- The values that a schema accepts are decoded exactly when they have a property: this is what the
decoder asks beyond the schema. -/
def DecodesWhen {α : Type} (s : Schema) (d : Decoder α) (P : Json → Prop) : Prop :=
  ∀ j, Distinct j → s.Accepts false j → ((∃ a, d (Scan.given j) = .ok a) ↔ P j)

section
variable {α : Type} {s : Schema} {d : Decoder α} {P : Json → Prop}

theorem accepts_true_iff (s : Schema) {j : Json} :
    s.Accepts true j ↔ j = .null ∨ s.Accepts false j := by
  cases s with
  | text description choices => simp [Accepts]
  | truth => simp [Accepts]
  | whole minimum => simp [Accepts]
  | list s => simp [Accepts]
  | record others required alternatives fields => simp [Accepts]
  | nullable s =>
    rw [Accepts, Accepts, accepts_true_iff s, ← or_assoc, or_self]

theorem accepts_nullable_iff {j : Json} :
    s.nullable.Accepts false j ↔ j = .null ∨ s.Accepts false j := by
  rw [Accepts, accepts_true_iff]

theorem accepts_record_iff {others : Option Bool} {required : List String}
    {alternatives : List (List String)} {fields : List (String × Schema)} {j : Json} :
    (Schema.record others required alternatives fields).Accepts false j ↔
      ∃ members, j = .obj members ∧
        (others = some false → ∀ m ∈ members, m.1 ∈ fields.map Prod.fst) ∧
        (∀ key ∈ required, key ∈ members.map Prod.fst) ∧
        (alternatives = [] ∨ ∃ keys ∈ alternatives, ∀ key ∈ keys, key ∈ members.map Prod.fst) ∧
        AcceptsFields fields members := by
  rw [Accepts, or_iff_right fun h => Bool.false_ne_true h.1]

theorem decodesWhen_text (description : Option String) (choices : List String) :
    (Schema.text description choices).DecodesWhen Decoder.text fun _ => True := by
  intro j _ haccepts
  simp only [Accepts, Bool.false_eq_true, false_and, false_or] at haccepts
  obtain ⟨text, rfl, -⟩ := haccepts
  exact iff_true_intro (text_given_iff.mpr ⟨text, rfl⟩)

theorem decodesWhen_choices {choices : List String} {table : List (String × α)} (hne : choices ≠ [])
    (hsub : choices ⊆ table.map Prod.fst) :
    (Schema.text none choices).DecodesWhen (Decoder.variant table) fun _ => True := by
  intro j _ haccepts
  simp only [Accepts, Bool.false_eq_true, false_and, false_or, hne] at haccepts
  obtain ⟨name, rfl, hname⟩ := haccepts
  exact iff_true_intro (variant_given_str (hsub hname))

theorem decodesWhen_truth : Schema.truth.DecodesWhen Decoder.bool fun _ => True := by
  intro j _ haccepts
  simp only [Accepts, Bool.false_eq_true, false_and, false_or] at haccepts
  exact iff_true_intro (bool_given_iff.mpr haccepts)

/-- A whole number has to be written without a fraction, and has a largest value. -/
theorem decodesWhen_whole {minimum : Int} (hminimum : 0 ≤ minimum) :
    (Schema.whole minimum).DecodesWhen Decoder.nat32 fun j =>
      ∃ i : Int, j = .num (.int i) ∧ i ≤ 0xFFFFFFFF := by
  intro j _ haccepts
  simp only [Accepts, Bool.false_eq_true, false_and, false_or] at haccepts
  obtain ⟨n, rfl, -, hatLeast⟩ := haccepts
  rw [nat32_given_iff]
  refine exists_congr fun i => and_congr_right fun heq => and_iff_right ?_
  cases heq
  exact Int.le_trans hminimum hatLeast

theorem DecodesWhen.list (h : s.DecodesWhen d P) :
    (Schema.list s).DecodesWhen (Decoder.list d) fun j => ∀ item ∈ j.items, P item := by
  intro j hdistinct haccepts
  simp only [Accepts, Bool.false_eq_true, false_and, false_or] at haccepts
  obtain ⟨items, rfl, haccepts⟩ := haccepts
  have hitem {item : Json} (hmem : item ∈ items) :
      (∃ a, d (Scan.given item) = .ok a) ↔ P item :=
    h item (distinctItems_iff.mp hdistinct item hmem) (haccepts item hmem)
  rw [list_given_iff]
  constructor
  · rintro ⟨_, ⟨⟩, hall⟩ item hmem
    exact (hitem hmem).mp (hall item hmem)
  · exact fun hall => ⟨items, rfl, fun item hmem => (hitem hmem).mpr (hall item hmem)⟩

/-- A place that may be null, and whose decoder takes null. -/
theorem DecodesWhen.optional (h : s.DecodesWhen d P) :
    s.nullable.DecodesWhen (Decoder.optional d) fun j => j = .null ∨ P j := by
  intro j hdistinct haccepts
  rw [optional_given_iff]
  obtain rfl | haccepts := accepts_nullable_iff.mp haccepts
  · simp
  · rw [h j hdistinct haccepts]

/-- A place that may be null by its schema, and whose decoder does not take null. -/
theorem DecodesWhen.nonNull (h : s.DecodesWhen d P) (hnull : ¬∃ a, d .null = .ok a)
    (hrejects : ¬s.Accepts false .null) :
    s.nullable.DecodesWhen d fun j => j ≠ .null ∧ P j := by
  intro j hdistinct haccepts
  obtain rfl | haccepts := accepts_nullable_iff.mp haccepts
  · exact iff_of_false hnull fun hne => hne.1 rfl
  · have hne : j ≠ .null := by
      rintro rfl
      exact hrejects haccepts
    exact (h j hdistinct haccepts).trans (and_iff_right hne).symm

/-- What is held under a key of an object decodes when it has the property. -/
theorem DecodesWhen.decodesAt_iff (h : s.DecodesWhen d P) {key : String}
    {members : List (String × Json)} (hdistinct : Distinct (.obj members))
    (haccepts : ∀ j, (key, j) ∈ members → s.Accepts false j) :
    DecodesAt d key members ↔ At key P (.obj members) := by
  refine forall_congr' fun j => forall_congr' fun hj => h j ?_ (haccepts j hj)
  exact distinctMembers_iff.mp hdistinct.2 (key, j) hj

theorem DecodesWhen.congr {Q : Json → Prop} (h : s.DecodesWhen d P) (hiff : ∀ j, P j ↔ Q j) :
    s.DecodesWhen d Q :=
  fun j hdistinct haccepts => (h j hdistinct haccepts).trans (hiff j)

end

end Schema

end NoteTools
