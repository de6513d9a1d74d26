import Mathlib.Data.List.Perm.Basic
import NoteTools.Proofs.RecordDecoding

/-!
# Written records are decoded

A record is written as an object that holds its fields under their names, some left out, or as an
array that holds them in order. Either form is decoded as the values of the fields. This does not
depend on how the written value is scanned: a text keeps the order in which members were written,
and a given value has them in the order of their keys.

Main definitions:

* `Faithful`: a way to scan values that keeps them, up to the order of members;
* `Filled`: a field and the value that it is to have;
* `Writes`, `Lists`: members and items that hold the values of fields;
* `Opens`: a scan is opened as a record whose fields have their values;
* `Layout`: how the values of a type are laid out in a record.

Results:

* `faithful_asIs`, `faithful_ofJson`: values are scanned faithfully, as they stand and in order;
* `Faithful.list`, `Faithful.optionalText`: lists and options are decoded;
* `opens_obj`, `opens_arr`: either form of a record is opened;
* `Layout.decode_obj`, `Layout.decode_arr`: either form of a value is decoded.
-/

namespace NoteTools.Json

/-! ## Scans made of lists -/

/-- Members that are all there, in order. -/
def Members.ofList : List (String × Scan) → Members
  | [] => .closed
  | (key, s) :: members => .cons (.ok key) s (ofList members)

/-- Items that are all there, in order, with what is at their end. -/
def Items.ofList (ending : Items) : List Scan → Items
  | [] => ending
  | s :: items => .cons s (ofList ending items)

/-- The end of an array that has been scanned to its end. -/
def Items.Ends : Items → Prop
  | .closed => True
  | .counted => True
  | .loose => True
  | _ => False

/-- A way to scan values is faithful when it keeps them, up to the order of the members of objects
without equal keys. -/
structure Faithful (view : Json → Scan) : Prop where
  null : view .null = .null
  bool : ∀ b, view (.bool b) = .bool b
  num : ∀ n, view (.num n) = .number n
  str : ∀ s, view (.str s) = .text s
  arr : ∀ items, ∃ ending : Items, ending.Ends ∧
    view (.arr items) = .array (Items.ofList ending (items.map view))
  obj : ∀ members : List (String × Json), (members.map Prod.fst).Nodup →
    ∃ scanned : List (String × Scan), view (.obj members) = .object (Members.ofList scanned) ∧
      scanned.Perm (members.map fun m => (m.1, view m.2))

theorem itemsAsIs_eq (ending : Items) (items : List Json) :
    Items.asIs ending items = Items.ofList ending (items.map (Scan.asIs ending)) := by
  induction items with
  | nil => rfl
  | cons j items ih => rw [Items.asIs, ih, List.map_cons, Items.ofList]

theorem membersAsIs_eq (ending : Items) (members : List (String × Json)) :
    Members.asIs ending members =
      Members.ofList (members.map fun m => (m.1, Scan.asIs ending m.2)) := by
  induction members with
  | nil => rfl
  | cons m members ih => rw [Members.asIs, ih, List.map_cons, Members.ofList]

/-- Values are scanned faithfully as they stand. -/
theorem faithful_asIs {ending : Items} (h : ending.Ends) : Faithful (Scan.asIs ending) where
  null := rfl
  bool _ := rfl
  num _ := rfl
  str _ := rfl
  arr items := ⟨ending, h, by rw [Scan.asIs, itemsAsIs_eq]⟩
  obj members _ := ⟨_, by rw [Scan.asIs, membersAsIs_eq], List.Perm.refl _⟩

/-! ### Members in the order of their keys -/

theorem sortedItems_eq (items : List Json) : sortedItems items = items.map sorted := by
  induction items with
  | nil => rfl
  | cons j items ih => rw [sortedItems, ih, List.map_cons]

theorem sortedMembers_eq (members : List (String × Json)) :
    sortedMembers members = members.map fun m => (m.1, sorted m.2) := by
  induction members with
  | nil => rfl
  | cons m members ih => rw [sortedMembers, ih, List.map_cons]

theorem putMember_perm {key : String} {value : Json} {members : List (String × Json)}
    (h : key ∉ members.map Prod.fst) :
    (putMember key value members).Perm ((key, value) :: members) := by
  induction members with
  | nil => exact List.Perm.refl _
  | cons m members ih =>
    obtain ⟨key', value'⟩ := m
    rw [List.map_cons, List.mem_cons, not_or] at h
    rw [putMember, if_neg h.1]
    split
    · exact List.Perm.refl _
    · exact ((ih h.2).cons _).trans (List.Perm.swap _ _ _)

/-- Members with different keys are all kept when they are put in order. -/
theorem foldl_putMember_perm {members sorted : List (String × Json)}
    (h : ((members ++ sorted).map Prod.fst).Nodup) :
    (members.foldl (fun sorted (key, value) => putMember key value sorted) sorted).Perm
      (members ++ sorted) := by
  induction members generalizing sorted with
  | nil => exact List.Perm.refl _
  | cons m members ih =>
    -- The members that are in order already are any: the fold goes on with one more of them.
    have hput : (putMember m.1 m.2 sorted).Perm (m :: sorted) := by
      apply putMember_perm
      intro hmem
      rw [List.cons_append, List.map_cons, List.nodup_cons, List.map_append] at h
      exact h.1 (List.mem_append_right _ hmem)
    have hmiddle : (members ++ putMember m.1 m.2 sorted).Perm (m :: members ++ sorted) :=
      (hput.append_left members).trans List.perm_middle
    rw [List.foldl_cons]
    exact (ih ((hmiddle.map Prod.fst).nodup_iff.mpr h)).trans hmiddle

theorem sortMembers_perm {members : List (String × Json)} (h : (members.map Prod.fst).Nodup) :
    (sortMembers members).Perm members := by
  have hall : ((members ++ []).map Prod.fst).Nodup := by rwa [List.append_nil]
  have hperm := foldl_putMember_perm hall
  rwa [List.append_nil] at hperm

/-- Given values are scanned faithfully, with their members in order. -/
theorem faithful_ofJson : Faithful Scan.ofJson where
  null := rfl
  bool _ := rfl
  num _ := rfl
  str _ := rfl
  arr items := by
    refine ⟨.counted, trivial, ?_⟩
    rw [Scan.ofJson, sorted, Scan.asIs, sortedItems_eq, itemsAsIs_eq, List.map_map]
    rfl
  obj members hnodup := by
    refine ⟨_, by rw [Scan.ofJson, sorted, Scan.asIs, membersAsIs_eq], ?_⟩
    have hkeys : ((sortedMembers members).map Prod.fst).Nodup := by
      rw [sortedMembers_eq, List.map_map]
      exact hnodup
    refine ((sortMembers_perm hkeys).map _).trans ?_
    rw [sortedMembers_eq, List.map_map]
    exact List.Perm.refl _

/-! ## Decoders of faithful scans -/

section
variable {view : Json → Scan} (hview : Faithful view)
include hview

theorem Faithful.text (s : String) : Decoder.text (view (.str s)) = .ok s := by
  rw [hview.str, Decoder.text]

theorem Faithful.truth (b : Bool) : Decoder.bool (view (.bool b)) = .ok b := by
  rw [hview.bool, Decoder.bool]

theorem Faithful.optionalNull {α : Type} (d : Decoder α) :
    Decoder.optional d (view .null) = .ok none := by
  rw [hview.null, Decoder.optional]

theorem Faithful.optionalText (text : Option String) :
    Decoder.optional Decoder.text (view (ofText? text)) = .ok text := by
  cases text with
  | none => exact hview.optionalNull Decoder.text
  | some s =>
    rw [ofText?, hview.str]
    rfl

theorem Faithful.variant {α : Type} {table : List (String × α)} {name : String} {a : α}
    (h : table.lookup name = some a) : Decoder.variant table (view (.str name)) = .ok a := by
  rw [hview.str, Decoder.variant, Decoder.variantOf, h]

omit hview in
theorem items_ofList {α : Type} {d : Decoder α} {ending : Items} (h : ending.Ends)
    {as : List α} {items : List Scan} (hitems : List.Forall₂ (fun a s => d s = .ok a) as items) :
    Decoder.items d (Items.ofList ending items) = .ok as := by
  induction hitems with
  | nil =>
    cases ending with
    | closed | counted | loose => rfl
    | stop s | cons head tail => exact h.elim
  | cons ha _ ih =>
    rw [Items.ofList, Decoder.items, ha, ih]
    rfl

/-- A list is decoded when each of its items is. -/
theorem Faithful.list {α : Type} {d : Decoder α} {as : List α} {items : List Json}
    (h : List.Forall₂ (fun a j => d (view j) = .ok a) as items) :
    Decoder.list d (view (.arr items)) = .ok as := by
  obtain ⟨ending, hending, hscan⟩ := hview.arr items
  rw [hscan, Decoder.list]
  exact items_ofList hending (List.forall₂_map_right_iff.mpr h)

/-- A list is decoded when each of its items is written so that it is. -/
theorem Faithful.list_map {α : Type} {d : Decoder α} {encode : α → Json} (as : List α)
    (h : ∀ a ∈ as, d (view (encode a)) = .ok a) :
    Decoder.list d (view (.arr (as.map encode))) = .ok as := by
  apply hview.list
  rw [List.forall₂_map_right_iff, List.forall₂_same]
  exact h

end

/-- A value that may be null is decoded where null itself is none. -/
theorem optional_of_decode {α : Type} {d : Decoder α} {s : Scan} {a : α}
    (hnull : ∀ a, d .null ≠ .ok a) (h : d s = .ok a) : Decoder.optional d s = .ok (some a) := by
  cases s with
  | null => exact absurd h (hnull a)
  | bool b | number n | text s | array items | object members | flaw f | stop s =>
    rw [Decoder.optional, h]
    · rfl
    all_goals exact nofun

/-! ## Records -/

/-- A field, and the value that it is to have. -/
structure Filled extends AnyField where
  /-- The value. -/
  value : Value

/-- Members that hold the values of fields, in order. A field stands under its name, or it is left
out and its value is the default. -/
inductive Writes (view : Json → Scan) : List Filled → List (String × Json) → Prop
  | nil : Writes view [] []
  | given {f : Filled} {fields : List Filled} {j : Json} {members : List (String × Json)} :
    f.field.decode (view j) = .ok f.value → Writes view fields members →
    Writes view (f :: fields) ((f.field.name, j) :: members)
  | omitted {f : Filled} {fields : List Filled} {members : List (String × Json)} :
    f.field.default? = some f.value → Writes view fields members →
    Writes view (f :: fields) members

/-- Items that hold the values of fields, in order. -/
def Lists (view : Json → Scan) : List Filled → List Json → Prop :=
  List.Forall₂ fun f j => f.field.decode (view j) = .ok f.value

/-- A scan is opened as a record whose fields have their values. -/
def Opens (title : String) (fields : List Filled) (s : Scan) : Prop :=
  ∃ r, openRecord title (fields.map fun f => f.field.slot) s = .ok r ∧
    ∀ f ∈ fields, r.get f.field = .ok f.value

theorem Apart.nodup_names {slots : List Slot} (h : Apart slots) : (slots.map Slot.name).Nodup := by
  have hdisjoint := (List.nodup_flatMap.mp h).2
  refine List.pairwise_map.mpr (hdisjoint.imp fun {slot slot'} hkeys hname => ?_)
  exact hkeys (List.mem_cons_self : slot.name ∈ slot.keys) (hname ▸ List.mem_cons_self)

theorem lookup_of_mem {α : Type} {members : List (String × α)} {key : String} {s : α}
    (hnodup : (members.map Prod.fst).Nodup) (h : (key, s) ∈ members) :
    members.lookup key = some s := by
  induction members with
  | nil => cases h
  | cons m members ih =>
    rw [List.map_cons, List.nodup_cons] at hnodup
    obtain rfl | h := List.mem_cons.mp h
    · exact List.lookup_cons_self
    · have hne : key ≠ m.1 := fun heq => hnodup.1 (heq ▸ List.mem_map_of_mem h)
      rw [List.lookup_cons, beq_eq_false_iff_ne.mpr hne]
      exact ih hnodup.2 h

theorem lookup_eq_none {α : Type} {members : List (String × α)} {key : String}
    (h : key ∉ members.map Prod.fst) : members.lookup key = none := by
  rw [List.lookup_eq_none_iff]
  intro m hm
  rw [bne_iff_ne]
  rintro rfl
  exact h (List.mem_map_of_mem hm)

theorem slot_check_of_decode {α : Type} {f : Field α} {s : Scan} {a : α} (h : f.decode s = .ok a) :
    f.slot.check s = .ok () :=
  slot_check_ok_iff.mpr ⟨a, h⟩

/-! ### Objects -/

section
variable {view : Json → Scan} {fields : List Filled} {members : List (String × Json)}

theorem Writes.append {fields' : List Filled} {members' : List (String × Json)}
    (h : Writes view fields members) (h' : Writes view fields' members') :
    Writes view (fields ++ fields') (members ++ members') := by
  induction h with
  | nil => exact h'
  | given hdecode _ ih => exact .given hdecode ih
  | omitted hdefault _ ih => exact .omitted hdefault ih

/-- A field that is put only when there is a text for it. -/
theorem Writes.textMember? {α : Type} {f : Field α} {text : Option String} {a : α}
    (hgiven : ∀ s, text = some s → f.decode (view (.str s)) = .ok a)
    (habsent : text = none → f.default? = some a) :
    Writes view [⟨⟨α, f⟩, a⟩] (Json.textMember? f.name text) := by
  cases text with
  | none => exact .omitted (habsent rfl) .nil
  | some s => exact .given (f := ⟨⟨α, f⟩, a⟩) (hgiven s rfl) .nil

theorem Writes.keys_sublist (h : Writes view fields members) :
    (members.map Prod.fst).Sublist (fields.map fun f => f.field.name) := by
  induction h with
  | nil => exact List.Sublist.refl _
  | given _ _ ih => exact ih.cons_cons _
  | omitted _ _ ih => exact ih.cons _

theorem Writes.of_mem (h : Writes view fields members) :
    ∀ m ∈ members, ∃ f ∈ fields, f.field.name = m.1 ∧ f.field.decode (view m.2) = .ok f.value := by
  induction h with
  | nil => exact fun m hm => absurd hm List.not_mem_nil
  | given hdecode _ ih =>
    intro m hm
    obtain rfl | hm := List.mem_cons.mp hm
    · exact ⟨_, List.mem_cons_self, rfl, hdecode⟩
    · obtain ⟨f, hf, h⟩ := ih m hm
      exact ⟨f, List.mem_cons_of_mem _ hf, h⟩
  | omitted _ _ ih =>
    intro m hm
    obtain ⟨f, hf, h⟩ := ih m hm
    exact ⟨f, List.mem_cons_of_mem _ hf, h⟩

/-- A field stands among the members, or it is left out and has its default. -/
theorem Writes.holds (h : Writes view fields members)
    (hnodup : (fields.map fun f => f.field.name).Nodup) :
    ∀ f ∈ fields, (∃ j, (f.field.name, j) ∈ members ∧ f.field.decode (view j) = .ok f.value) ∨
      (f.field.name ∉ members.map Prod.fst ∧ f.field.default? = some f.value) := by
  induction h with
  | nil => exact fun f hf => absurd hf List.not_mem_nil
  | @given f' fields j members hdecode hrest ih =>
    rw [List.map_cons, List.nodup_cons] at hnodup
    intro f hf
    obtain rfl | hf := List.mem_cons.mp hf
    · exact .inl ⟨j, List.mem_cons_self, hdecode⟩
    · obtain ⟨i, hi, h⟩ | ⟨habsent, h⟩ := ih hnodup.2 f hf
      · exact .inl ⟨i, List.mem_cons_of_mem _ hi, h⟩
      · refine .inr ⟨?_, h⟩
        rw [List.map_cons, List.mem_cons, not_or]
        refine ⟨fun heq => hnodup.1 ?_, habsent⟩
        exact List.mem_map.mpr ⟨f, hf, heq⟩
  | @omitted f' fields members hdefault hrest ih =>
    rw [List.map_cons, List.nodup_cons] at hnodup
    intro f hf
    obtain rfl | hf := List.mem_cons.mp hf
    · exact .inr ⟨fun hmem => hnodup.1 (hrest.keys_sublist.subset hmem), hdefault⟩
    · exact ih hnodup.2 f hf

end

/-- Members that stand under the names of their fields, and that their fields decode, are taken as
they are. -/
theorem openMembers_ofList {slots : List Slot} (hapart : Apart slots) {seen : List String}
    {members : List (String × Scan)} (hnodup : (members.map Prod.fst).Nodup)
    (hseen : ∀ m ∈ members, m.1 ∉ seen)
    (h : ∀ m ∈ members, ∃ slot ∈ slots, slot.name = m.1 ∧ slot.check m.2 = .ok ()) :
    openMembers slots seen (Members.ofList members) = .ok members := by
  induction members generalizing seen with
  | nil => rfl
  | cons m members ih =>
    obtain ⟨key, s⟩ := m
    rw [List.map_cons, List.nodup_cons] at hnodup
    obtain ⟨slot, hslot, rfl, hcheck⟩ := h _ List.mem_cons_self
    have hkey : slot.name ∈ slot.keys := List.mem_cons_self
    have htaken : slotOf? slots slot.name = some slot := by
      cases hfound : slotOf? slots slot.name with
      | none => exact absurd hkey (slotOf?_eq_none hfound hslot)
      | some slot' =>
        obtain ⟨hslot', hkey'⟩ := mem_of_slotOf? hfound
        rw [hapart.eq_of_mem_keys hslot' hslot hkey' hkey]
    have hunseen : seen.contains slot.name = false := by
      rw [List.contains_eq_mem, decide_eq_false_iff_not]
      exact hseen _ List.mem_cons_self
    -- No member behind this one has its key, so none of them is refused as a duplicate.
    have hrest : openMembers slots (slot.name :: seen) (Members.ofList members) = .ok members := by
      refine ih hnodup.2 (fun m hm => ?_) fun m hm => h m (List.mem_cons_of_mem _ hm)
      rw [List.mem_cons, not_or]
      exact ⟨fun heq => hnodup.1 (List.mem_map.mpr ⟨m, hm, heq⟩),
        hseen m (List.mem_cons_of_mem _ hm)⟩
    rw [Members.ofList, openMembers]
    simp only [htaken, hunseen, hcheck, hrest]
    rfl

section
variable {view : Json → Scan} (hview : Faithful view) {fields : List Filled}
include hview

/-- **A record that is written by name is opened**: its fields have the values that were written. -/
theorem opens_obj (title : String) (hapart : Apart (fields.map fun f => f.field.slot))
    {members : List (String × Json)} (h : Writes view fields members) :
    Opens title fields (view (.obj members)) := by
  have hnames : (fields.map fun f => f.field.name).Nodup := by
    have hslots := hapart.nodup_names
    rwa [List.map_map] at hslots
  have hkeys : (members.map Prod.fst).Nodup := hnames.sublist h.keys_sublist
  -- What is scanned has the members in an order of its own; only their keys and values count.
  obtain ⟨scanned, hscan, hperm⟩ := hview.obj members hkeys
  have hperm' : (scanned.map Prod.fst).Perm (members.map Prod.fst) := by
    have hmap := hperm.map Prod.fst
    rwa [List.map_map] at hmap
  have hopen : openMembers (fields.map fun f => f.field.slot) [] (Members.ofList scanned) =
      .ok scanned := by
    refine openMembers_ofList hapart (hperm'.nodup_iff.mpr hkeys) (fun _ _ => List.not_mem_nil) ?_
    intro m hm
    obtain ⟨⟨key, j⟩, hj, rfl⟩ := List.mem_map.mp (hperm.mem_iff.mp hm)
    obtain ⟨f, hf, hname, hdecode⟩ := h.of_mem _ hj
    exact ⟨f.field.slot, List.mem_map_of_mem hf, hname, slot_check_of_decode hdecode⟩
  refine ⟨⟨scanned, .missingField⟩, ?_, fun f hf => ?_⟩
  · rw [hscan, openRecord, hopen]
    rfl
  · obtain ⟨j, hj, hdecode⟩ | ⟨habsent, hdefault⟩ := h.holds hnames f hf
    · have hmem : (f.field.name, view j) ∈ scanned :=
        hperm.mem_iff.mpr (List.mem_map_of_mem (f := fun m => (m.1, view m.2)) hj)
      have hlookup := lookup_of_mem (hperm'.nodup_iff.mpr hkeys) hmem
      simp only [Opened.get, hlookup, hdecode]
    · have hlookup := lookup_eq_none fun hmem => habsent (hperm'.mem_iff.mp hmem)
      simp only [Opened.get, hlookup, hdefault]

/-! ### Arrays -/

omit hview in
theorem openItems_ofList (ending : Items) {items : List Scan}
    (h : List.Forall₂ (fun (f : Filled) s => f.field.decode s = .ok f.value) fields items) :
    openItems (fields.map fun f => f.field.slot) (Items.ofList ending items) =
      .ok ((fields.map fun f => f.field.name).zip items, ending) := by
  induction h with
  | nil => simp [openItems, Items.ofList]
  | @cons f s fields items hdecode hrest ih =>
    rw [List.map_cons, Items.ofList, openItems, slot_check_of_decode hdecode, ih]
    rfl

omit hview in
/-- Each field stands beside an item that it decodes. -/
theorem exists_mem_zip {items : List Scan}
    (h : List.Forall₂ (fun (f : Filled) s => f.field.decode s = .ok f.value) fields items) :
    ∀ f ∈ fields, ∃ s, (f.field.name, s) ∈ (fields.map fun f => f.field.name).zip items ∧
      f.field.decode s = .ok f.value := by
  induction h with
  | nil => exact fun f hf => absurd hf List.not_mem_nil
  | @cons f' s' fields items hdecode hrest ih =>
    intro f hf
    rw [List.map_cons, List.zip_cons_cons]
    obtain rfl | hf := List.mem_cons.mp hf
    · exact ⟨s', List.mem_cons_self, hdecode⟩
    · obtain ⟨s, hs, h⟩ := ih f hf
      exact ⟨s, List.mem_cons_of_mem _ hs, h⟩

omit hview in
theorem closeItems_of_ends {ending : Items} (h : ending.Ends) (taken : Nat) :
    closeItems taken ending = .ok () := by
  cases ending with
  | closed | counted | loose => rfl
  | stop s | cons head tail => exact h.elim

/-- **A record that is written in order is opened**: its fields have the values that were
written. -/
theorem opens_arr (title : String) (hapart : Apart (fields.map fun f => f.field.slot))
    {items : List Json} (h : Lists view fields items) : Opens title fields (view (.arr items)) := by
  have hnames : (fields.map fun f => f.field.name).Nodup := by
    have hslots := hapart.nodup_names
    rwa [List.map_map] at hslots
  obtain ⟨ending, hending, hscan⟩ := hview.arr items
  have hdecodes : List.Forall₂ (fun (f : Filled) s => f.field.decode s = .ok f.value) fields
      (items.map view) := List.forall₂_map_right_iff.mpr h
  have hitems := openItems_ofList ending hdecodes
  have hlength : (fields.map fun f => f.field.name).length = (items.map view).length := by
    rw [List.length_map, List.length_map, h.length_eq]
  have hkeys : (((fields.map fun f => f.field.name).zip (items.map view)).map Prod.fst).Nodup := by
    rwa [List.map_fst_zip (Nat.le_of_eq hlength)]
  have hcount : ((fields.map fun f => f.field.name).zip (items.map view)).length =
      (fields.map fun f => f.field.slot).length := by
    rw [List.length_zip, ← hlength, Nat.min_self, List.length_map, List.length_map]
  have hopen : ∃ absent, openRecord title (fields.map fun f => f.field.slot) (view (.arr items)) =
      .ok ⟨(fields.map fun f => f.field.name).zip (items.map view), absent⟩ := by
    rw [hscan, openRecord, hitems]
    dsimp only [bind, Except.bind]
    rw [if_pos hcount, closeItems_of_ends hending]
    exact ⟨_, rfl⟩
  obtain ⟨absent, hopen⟩ := hopen
  refine ⟨_, hopen, fun f hf => ?_⟩
  obtain ⟨s, hs, hdecode⟩ := exists_mem_zip hdecodes f hf
  simp only [Opened.get, lookup_of_mem hkeys hs, hdecode]

end

/-! ## Layouts -/

/-- A decoder that opens a record, and then gets the value of each field, decodes a record whose
fields have their values. -/
theorem decodes_of_opens {β : Type} {title : String} {fields : List Filled} {s : Scan}
    {collect : Opened → Except DecodeError β} {b : β} (h : Opens title fields s)
    (hcollect : ∀ r : Opened, (∀ f ∈ fields, r.get f.field = .ok f.value) → collect r = .ok b) :
    openRecord title (fields.map fun f => f.field.slot) s >>= collect = .ok b := by
  obtain ⟨r, hr, hget⟩ := h
  rw [hr]
  exact hcollect r hget

/-- How the values of a type are laid out in a record, and the decoder that goes by it. -/
structure Layout (α : Type) where
  /-- The title of the record. -/
  title : String
  /-- The fields, in order, and what they hold of a value. -/
  filled : α → List Filled
  /-- The decoder. -/
  decode : Decoder α
  /-- No key is taken by two fields. -/
  apart : ∀ a, Apart ((filled a).map fun f => f.field.slot) := by
    intro a
    exact of_decide_eq_true rfl
  /-- A record whose fields hold a value is decoded as that value. A decoder that opens the record
  and gets its fields one by one does so. -/
  decode_of_opens : ∀ {a s}, Opens title (filled a) s → decode s = .ok a := by
    intro a s h
    refine decodes_of_opens h fun r hget => ?_
    simp only [List.forall_mem_cons] at hget
    simp only [hget, bind, Except.bind]
    rfl

namespace Layout

variable {α : Type} (l : Layout α) {view : Json → Scan} (hview : Faithful view) {a : α}
include hview

/-- A value that is written by name is decoded. -/
theorem decode_obj {members : List (String × Json)} (h : Writes view (l.filled a) members) :
    l.decode (view (.obj members)) = .ok a :=
  l.decode_of_opens (opens_obj hview l.title (l.apart a) h)

/-- A value that is written in order is decoded. -/
theorem decode_arr {items : List Json} (h : Lists view (l.filled a) items) :
    l.decode (view (.arr items)) = .ok a :=
  l.decode_of_opens (opens_arr hview l.title (l.apart a) h)

end Layout

end NoteTools.Json
