import NoteTools.Proofs.GivenRecords

/-!
# Spellings of keys and texts

Some keys of criteria and scopes have a second spelling, and so have some texts that stand there for
a kind or a connector. It does not matter which spelling is used, and whatever other members there
are; but a key that stands in both spellings is refused.

Main definitions:

* `keySpellings`, `textSpellings`: what has two spellings;
* `Respelled`, `SearchRequest.Respelled`: members of an object with other spellings;
* `SearchRequest.SpelledTwice`: a key stands in both spellings.

Results:

* `Field.Reads.of_alike`: what a field reads when members have other keys and values;
* `Criterion.decode_respelled`, `Scope.decode_respelled`: criteria and scopes with other spellings;
* `alias_spellings`: requests to search.
-/

namespace NoteTools

open Json

/-! ## Specification -/

/-- Two names are one name, or its two spellings. -/
def SameName (spellings : List (String × String)) (name name' : String) : Prop :=
  name = name' ∨ (name, name') ∈ spellings ∨ (name', name) ∈ spellings

/-- The keys with two spellings. -/
def keySpellings : List (String × String) :=
  [("type", "variant"), ("op", "operator"), ("referenceNoteId", "noteId")]

/-- The texts with two spellings under a key. -/
def textSpellings (key : String) : List (String × String) :=
  if key = "type" ∨ key = "variant" then [("noteProperty", "note_property")]
  else if key = "logic" then [("AND", "and"), ("OR", "or")]
  else []

/-- Two values under a key are one value, or the two spellings of a text. -/
inductive SameValue (key : String) : Json → Json → Prop
  | refl (j : Json) : SameValue key j j
  | text {text text' : String} : SameName (textSpellings key) text text' →
    SameValue key (.str text) (.str text')

/-- Members whose keys are renamed, and whose values are alike. -/
def Alike (rename : String → String) (same : String → Json → Json → Prop) :
    List (String × Json) → List (String × Json) → Prop :=
  List.Forall₂ fun m m' => m'.1 = rename m.1 ∧ same m.1 m.2 m'.2

/-- The members of a criterion or a scope with other spellings of any of its keys and texts. -/
def Respelled (members members' : List (String × Json)) : Prop :=
  ∃ rename : String → String, (∀ key, SameName keySpellings key (rename key)) ∧
    Alike rename SameValue members members'

/-- Two values are one value, or objects that are respelled. -/
inductive SameRecord : Json → Json → Prop
  | refl (j : Json) : SameRecord j j
  | obj {members members' : List (String × Json)} : Respelled members members' →
    SameRecord (.obj members) (.obj members')

/-- Two values under a key of a request are one value, or criteria or scopes that are respelled. -/
inductive SamePart : String → Json → Json → Prop
  | refl (key : String) (j : Json) : SamePart key j j
  | criteria {items items' : List Json} : List.Forall₂ SameRecord items items' →
    SamePart "criteria" (.arr items) (.arr items')
  | scope {j j' : Json} : SameRecord j j' → SamePart "hierarchy" j j'

/-- The members of a request with other spellings in any of its criteria and in its scope. -/
def SearchRequest.Respelled (members members' : List (String × Json)) : Prop :=
  Alike id SamePart members members'

/-- A criterion or the scope of a request has a key in both spellings. -/
def SearchRequest.SpelledTwice (members : List (String × Json)) : Prop :=
  (∃ items, last? "criteria" members = some (.arr items) ∧
    ∃ c ∈ items, ¬(c.Once "type" "variant" ∧ c.Once "op" "operator")) ∨
  ∃ scope, last? "hierarchy" members = some scope ∧ ¬scope.Once "referenceNoteId" "noteId"

/-! ## Names -/

section
variable {spellings : List (String × String)} {name name' : String}

theorem SameName.eq_of_nil (h : SameName [] name name') : name = name' :=
  h.resolve_right (by simp)

/-- What does not depend on the spelling is the same for the same name. -/
theorem SameName.congr {β : Type} {f : String → β} (h : SameName spellings name name')
    (hf : ∀ p ∈ spellings, f p.1 = f p.2) : f name = f name' := by
  obtain rfl | h | h := h
  · rfl
  · exact hf _ h
  · exact (hf _ h).symm

/-- Names that have another spelling may be put in it, all of them. -/
theorem sameName_other (spellings : List (String × String)) (name : String) :
    SameName spellings name ((spellings.lookup name).getD name) := by
  cases hother : spellings.lookup name with
  | none => exact .inl rfl
  | some other =>
    obtain ⟨front, back, hsplit, -⟩ := List.lookup_eq_some_iff.mp hother
    exact .inr (.inl (hsplit ▸ List.mem_append_right front List.mem_cons_self))

theorem SameName.mem_iff {keys : List String} (h : SameName spellings name name')
    (hkeys : ∀ p ∈ spellings, p.1 ∈ keys ↔ p.2 ∈ keys) : name' ∈ keys ↔ name ∈ keys :=
  iff_of_eq (h.congr (f := (· ∈ keys)) fun p hp => propext (hkeys p hp)).symm

end

/-! ## Members that are alike -/

section
variable {rename : String → String} {same : String → Json → Json → Prop}
variable {members members' : List (String × Json)}

theorem Alike.mem_keys_iff (h : Alike rename same members members') {key' : String} :
    key' ∈ members'.map Prod.fst ↔ ∃ key ∈ members.map Prod.fst, rename key = key' := by
  have hkeys : members'.map Prod.fst = (members.map Prod.fst).map rename := by
    induction h with
    | nil => rfl
    | cons hm _ ih => rw [List.map_cons, List.map_cons, List.map_cons, ih, hm.1]
  rw [hkeys, List.mem_map]

/-- What stands last under a key stood last under a key that is renamed to it. -/
theorem Alike.exists_last? (h : Alike rename same members members') {key' : String} {j' : Json}
    (hlast : last? key' members' = some j') :
    ∃ key j, rename key = key' ∧ last? key members = some j ∧ same key j j' := by
  have hreverse : Alike rename same members.reverse members'.reverse :=
    List.forall₂_reverse_iff.mpr h
  rw [last?] at hlast
  simp only [last?]
  generalize members.reverse = front at hreverse ⊢
  generalize members'.reverse = front' at hreverse hlast
  induction hreverse with
  | nil => cases hlast
  | @cons m m' front front' hm _ ih =>
    rw [lookup_cons_eq_ite] at hlast
    split at hlast
    next heq =>
      cases hlast
      exact ⟨m.1, m.2, (heq.trans hm.1).symm, by rw [lookup_cons_eq_ite, if_pos rfl], hm.2⟩
    next hne =>
      obtain ⟨key, j, rfl, hj, hsame⟩ := ih hlast
      refine ⟨key, j, rfl, ?_, hsame⟩
      rw [lookup_cons_eq_ite, if_neg, hj]
      rintro rfl
      exact hne hm.1.symm

/-- **What a field reads** it reads of members that are alike too, when the keys that it takes are
renamed to each other and its decoder does not tell their values apart. -/
theorem Json.Field.Reads.of_alike {α : Type} {f : Field α} {a : α} (h : f.Reads members a)
    (halike : Alike rename same members members')
    (hkeys : ∀ key, rename key ∈ f.slot.keys ↔ key ∈ f.slot.keys)
    (hsame : ∀ key ∈ f.slot.keys, ∀ j j', same key j j' →
      decodeValue f.decode j = .ok a → decodeValue f.decode j' = .ok a) :
    f.Reads members' a where
  once renamed hkey renamed' hkey' hthere hthere' := by
    obtain ⟨key, hbefore, rfl⟩ := halike.mem_keys_iff.mp hthere
    obtain ⟨key', hbefore', rfl⟩ := halike.mem_keys_iff.mp hthere'
    have heq : key = key' :=
      h.once key ((hkeys key).mp hkey) key' ((hkeys key').mp hkey') hbefore hbefore'
    rw [heq]
  decodes key' hkey j' hlast := by
    obtain ⟨key, j, rfl, hj, hlike⟩ := halike.exists_last? hlast
    have hkey := (hkeys key).mp hkey
    exact hsame key hkey j j' hlike (h.decodes key hkey j hj)
  default_of_absent habsent := by
    refine h.default_of_absent fun key hkey hthere => ?_
    exact habsent (rename key) ((hkeys key).mpr hkey) (halike.mem_keys_iff.mpr ⟨key, hthere, rfl⟩)

end

/-! ## Criteria and scopes -/

/-- A field does not tell spellings apart: it takes both spellings of a key or none, and decodes
both spellings of a text alike. -/
structure Blind {α : Type} (f : Json.Field α) : Prop where
  keys : ∀ p ∈ keySpellings, p.1 ∈ f.slot.keys ↔ p.2 ∈ f.slot.keys
  texts : ∀ key ∈ f.slot.keys, ∀ text text', SameName (textSpellings key) text text' →
    ∀ a, decodeValue f.decode (.str text) = .ok a → decodeValue f.decode (.str text') = .ok a

section
variable {α : Type} {f : Json.Field α} {table : List (String × α)} {text text' : String}

/-- A field under whose keys no text has two spellings. -/
theorem blind_of_plain (hkeys : ∀ p ∈ keySpellings, p.1 ∈ f.slot.keys ↔ p.2 ∈ f.slot.keys)
    (hplain : ∀ key ∈ f.slot.keys, textSpellings key = []) : Blind f where
  keys := hkeys
  texts key hkey text text' hsame a h := by
    rw [hplain key hkey] at hsame
    exact hsame.eq_of_nil ▸ h

/-- A variant is decoded from both of its spellings. -/
theorem decode_variant_respelled {spellings : List (String × String)} {a : α}
    (hsame : SameName spellings text text')
    (htable : ∀ p ∈ spellings, table.lookup p.1 = table.lookup p.2)
    (h : decodeValue (Decoder.variant table) (.str text) = .ok a) :
    decodeValue (Decoder.variant table) (.str text') = .ok a := by
  have hlookup : table.lookup text = table.lookup text' :=
    hsame.congr (f := fun name => table.lookup name) htable
  change Decoder.variantOf table text = .ok a at h
  change Decoder.variantOf table text' = .ok a
  rw [Decoder.variantOf, hlookup] at h
  rw [Decoder.variantOf]
  cases hname : table.lookup text' with
  | none =>
    rw [hname] at h
    cases h
  | some b =>
    rw [hname] at h
    exact h

theorem Criterion.blind (c : Criterion) : ∀ f ∈ Criterion.layout.filled c, Blind f.field := by
  have hkind : Blind
      ((Field.required "type" (Decoder.variant Criterion.Kind.table)).orNamed "variant") := by
    refine ⟨by decide, fun key hkey text text' hsame a h => ?_⟩
    have hspellings : textSpellings key = [("noteProperty", "note_property")] :=
      if_pos (by simpa [Field.slot, Slot.keys, Field.required, Field.orNamed] using hkey)
    rw [hspellings] at hsame
    exact decode_variant_respelled hsame (by decide) h
  have hconnector :
      Blind (Field.withDefault "logic" (Decoder.optional Connector.decode) none) := by
    refine ⟨by decide, fun key hkey text text' hsame a h => ?_⟩
    obtain rfl : key = "logic" := List.mem_singleton.mp hkey
    obtain ⟨⟨⟩, -⟩ | ⟨-, connector, hc, rfl⟩ := optional_ofJson_iff.mp h
    exact optional_ofJson_iff.mpr
      (.inr ⟨by simp, connector, decode_variant_respelled hsame (by decide) hc, rfl⟩)
  simp only [Criterion.layout, List.forall_mem_cons]
  exact ⟨blind_of_plain (by decide) (by decide), hkind, blind_of_plain (by decide) (by decide),
    blind_of_plain (by decide) (by decide), hconnector, by simp⟩

theorem Scope.blind (s : Scope) : ∀ f ∈ Scope.layout.filled s, Blind f.field := by
  simp only [Scope.layout, List.forall_mem_cons]
  exact ⟨blind_of_plain (by decide) (by decide), blind_of_plain (by decide) (by decide), by simp⟩

end

section
variable {members members' : List (String × Json)}

/-- A record without a field that tells spellings apart is decoded from either spelling. -/
theorem Json.Layout.decode_respelled {α : Type} (l : Layout α) {a : α}
    (hblind : ∀ f ∈ l.filled a, Blind f.field) (h : Respelled members members')
    (hreads : ∀ f ∈ l.filled a, f.field.Reads members f.value) :
    decodeValue l.decode (.obj members') = .ok a := by
  obtain ⟨rename, hrename, halike⟩ := h
  refine l.decode_of_reads fun f hf => ?_
  refine (hreads f hf).of_alike halike (fun key => (hrename key).mem_iff (hblind f hf).keys) ?_
  rintro key hkey _ _ (_ | hsame) hdecode
  · exact hdecode
  · exact (hblind f hf).texts key hkey _ _ hsame _ hdecode

theorem Criterion.decode_respelled {c : Criterion} (h : Respelled members members')
    (hdecode : decodeValue Criterion.decode (.obj members) = .ok c) :
    decodeValue Criterion.decode (.obj members') = .ok c :=
  Criterion.layout.decode_respelled c.blind h (Criterion.reads_of_decoded hdecode)

theorem Scope.decode_respelled {s : Scope} (h : Respelled members members')
    (hdecode : decodeValue Scope.decode (.obj members) = .ok s) :
    decodeValue Scope.decode (.obj members') = .ok s :=
  Scope.layout.decode_respelled s.blind h (Scope.reads_of_decoded hdecode)

end

/-- A field that is read is not given under two of its keys. -/
theorem Json.Field.Reads.once_keys {α : Type} {f : Field α} {a : α}
    {members : List (String × Json)} (h : f.Reads members a) {key key' : String}
    (hkey : key ∈ f.slot.keys) (hkey' : key' ∈ f.slot.keys) (hne : key ≠ key') :
    (Json.obj members).Once key key' :=
  fun ⟨hthere, hthere'⟩ => hne (h.once key hkey key' hkey' hthere hthere')

theorem Criterion.once_of_decoded {j : Json} {c : Criterion}
    (h : decodeValue Criterion.decode j = .ok c) :
    j.Once "type" "variant" ∧ j.Once "op" "operator" := by
  cases j with
  | obj members =>
    have hreads := Criterion.reads_of_decoded h
    simp only [Criterion.layout, List.forall_mem_cons] at hreads
    obtain ⟨-, hkind, hop, -⟩ := hreads
    exact ⟨hkind.once_keys (by decide) (by decide) (by decide),
      hop.once_keys (by decide) (by decide) (by decide)⟩
  | null | bool b | num n | str s | arr items => simp [Once, Json.keys, Json.members]

theorem Scope.once_of_decoded {j : Json} {s : Scope} (h : decodeValue Scope.decode j = .ok s) :
    j.Once "referenceNoteId" "noteId" := by
  cases j with
  | obj members =>
    have hreads := Scope.reads_of_decoded h
    simp only [Scope.layout, List.forall_mem_cons] at hreads
    exact hreads.2.1.once_keys (by decide) (by decide) (by decide)
  | null | bool b | num n | str s | arr items => simp [Once, Json.keys, Json.members]

/-! ## Requests -/

section
variable {j j' : Json} {key : String}

theorem SamePart.eq (h : SamePart key j j') (hcriteria : key ≠ "criteria")
    (hscope : key ≠ "hierarchy") : j = j' := by
  cases h with
  | refl => rfl
  | criteria => exact absurd rfl hcriteria
  | scope => exact absurd rfl hscope

/-- Criteria are decoded with other spellings. -/
theorem SamePart.decode_criteria (h : SamePart key j j') (hkey : key = "criteria")
    {cs : List Criterion} (hdecode : decodeValue (Decoder.list Criterion.decode) j = .ok cs) :
    decodeValue (Decoder.list Criterion.decode) j' = .ok cs := by
  cases h with
  | refl => exact hdecode
  | scope => exact absurd hkey (by decide)
  | criteria hitems =>
    rw [list_ofJson_iff] at hdecode ⊢
    induction hitems generalizing cs with
    | nil => exact hdecode
    | cons hitem _ ih =>
      obtain ⟨c, cs, hc, hcs, rfl⟩ := List.forall₂_cons_left_iff.mp hdecode
      refine .cons ?_ (ih hcs)
      cases hitem with
      | refl => exact hc
      | obj h => exact Criterion.decode_respelled h hc

/-- A scope is decoded with other spellings. -/
theorem SamePart.decode_scope (h : SamePart key j j') (hkey : key = "hierarchy")
    {scope : Option Scope} (hdecode : decodeValue (Decoder.optional Scope.decode) j = .ok scope) :
    decodeValue (Decoder.optional Scope.decode) j' = .ok scope := by
  cases h with
  | refl => exact hdecode
  | criteria => exact absurd hkey (by decide)
  | scope hrecord =>
    cases hrecord with
    | refl => exact hdecode
    | @obj members members' h =>
      obtain ⟨⟨⟩, -⟩ | ⟨-, s, hs, rfl⟩ := optional_ofJson_iff.mp hdecode
      exact optional_ofJson_iff.mpr (.inr ⟨by simp, s, Scope.decode_respelled h hs, rfl⟩)

end

section
variable {members members' : List (String × Json)} {r : SearchRequest}

/-- Beside its criteria and its scope, nothing in a request is spelled in another way. -/
theorem Json.Field.Reads.of_respelled {α : Type} {f : Field α} {a : α} (h : f.Reads members a)
    (hmembers : SearchRequest.Respelled members members')
    (hplain : ∀ key ∈ f.slot.keys, key ≠ "criteria" ∧ key ≠ "hierarchy") : f.Reads members' a := by
  refine h.of_alike hmembers (fun _ => Iff.rfl) fun key hkey j j' hsame hj => ?_
  obtain ⟨hcriteria, hscope⟩ := hplain key hkey
  exact hsame.eq hcriteria hscope ▸ hj

theorem SearchRequest.decode_respelled (h : SearchRequest.Respelled members members')
    (hdecode : decodeValue SearchRequest.decode (.obj members) = .ok r) :
    decodeValue SearchRequest.decode (.obj members') = .ok r := by
  have hreads := SearchRequest.reads_of_decoded hdecode
  apply SearchRequest.layout.decode_of_reads
  simp only [SearchRequest.layout, List.forall_mem_cons] at hreads ⊢
  obtain ⟨htext, hcriteria, hscope, hlimit, harchived, -⟩ := hreads
  refine ⟨htext.of_respelled h (by decide), ?_, ?_, hlimit.of_respelled h (by decide),
    harchived.of_respelled h (by decide), by simp⟩
  · exact hcriteria.of_alike h (fun _ => Iff.rfl) fun key hkey j j' hsame hj =>
      hsame.decode_criteria (List.mem_singleton.mp hkey) hj
  · exact hscope.of_alike h (fun _ => Iff.rfl) fun key hkey j j' hsame hj =>
      hsame.decode_scope (List.mem_singleton.mp hkey) hj

theorem SearchRequest.not_decoded_of_spelledTwice (h : SearchRequest.SpelledTwice members)
    (r : SearchRequest) :
    decodeValue SearchRequest.decode (.obj members) ≠ .ok r := by
  intro hdecode
  have hreads := SearchRequest.reads_of_decoded hdecode
  simp only [SearchRequest.layout, List.forall_mem_cons] at hreads
  obtain ⟨-, hcriteria, hscope, -⟩ := hreads
  obtain ⟨items, hlast, c, hc, htwice⟩ | ⟨scope, hlast, htwice⟩ := h
  · have hitems := list_ofJson_iff.mp (hcriteria.decodes "criteria" List.mem_cons_self _ hlast)
    have honce := (List.forall₂_and_left _ _).mp
      (hitems.imp fun _ _ hitem => And.intro (Criterion.once_of_decoded hitem) hitem)
    exact htwice (honce.1 c hc)
  · have hdecoded := hscope.decodes "hierarchy" List.mem_cons_self _ hlast
    obtain ⟨rfl, -⟩ | ⟨-, s, hs, -⟩ := optional_ofJson_iff.mp hdecoded
    · exact htwice fun h => List.not_mem_nil h.1
    · exact htwice (Scope.once_of_decoded hs)

end

/-- **Spellings are transparent.** A request to search is decoded as the same request with any other
spellings in its criteria and its scope, and it is not decoded when a key stands in both. -/
theorem alias_spellings :
    (∀ (members members' : List (String × Json)) (r : SearchRequest),
      SearchRequest.Respelled members members' →
        decodeValue SearchRequest.decode (.obj members) = .ok r →
          decodeValue SearchRequest.decode (.obj members') = .ok r) ∧
      ∀ members : List (String × Json), SearchRequest.SpelledTwice members →
        ∀ r, decodeValue SearchRequest.decode (.obj members) ≠ .ok r :=
  ⟨fun _ _ _ h hdecode => SearchRequest.decode_respelled h hdecode,
    fun _ h r => SearchRequest.not_decoded_of_spelledTwice h r⟩

/-- The members of a search for a note property, in the main spellings, with a member that no field
takes. -/
def plainMembers : List (String × Json) :=
  [("text", .null),
   ("criteria", .arr [.obj [("type", .str "noteProperty"), ("property", .str "dateCreated"),
     ("note", .str "noteProperty"), ("op", .str ">="), ("value", .str "2024-01-01"),
     ("logic", .str "AND")]]),
   ("hierarchy", .obj [("kind", .str "children"), ("referenceNoteId", .str "root")])]

/-- The same members in the other spellings. -/
def otherMembers : List (String × Json) :=
  [("text", .null),
   ("criteria", .arr [.obj [("variant", .str "note_property"), ("property", .str "dateCreated"),
     ("note", .str "noteProperty"), ("operator", .str ">="), ("value", .str "2024-01-01"),
     ("logic", .str "and")]]),
   ("hierarchy", .obj [("kind", .str "children"), ("noteId", .str "root")])]

/-- The request of these members. -/
def datedSearch : SearchRequest where
  criteria :=
    [{ property := "dateCreated", kind := .noteProperty, op := some ">=",
       value := some "2024-01-01", connector := some .and }]
  scope := some ⟨.children, "root"⟩

/-- The members of a search in which a kind stands in both spellings. -/
def twiceMembers : List (String × Json) :=
  [("criteria", .arr [.obj [("property", .str "book"), ("type", .str "label"),
    ("variant", .str "label")]])]

theorem alias_spellings_dated :
    SearchRequest.Respelled plainMembers otherMembers ∧
      decodeValue SearchRequest.decode (.obj plainMembers) = .ok datedSearch ∧
      decodeValue SearchRequest.decode (.obj otherMembers) = .ok datedSearch ∧
      SearchRequest.SpelledTwice twiceMembers ∧
      ∀ r, decodeValue SearchRequest.decode (.obj twiceMembers) ≠ .ok r := by
  have hcriterion : Respelled
      [("type", .str "noteProperty"), ("property", .str "dateCreated"),
        ("note", .str "noteProperty"), ("op", .str ">="), ("value", .str "2024-01-01"),
        ("logic", .str "AND")]
      [("variant", .str "note_property"), ("property", .str "dateCreated"),
        ("note", .str "noteProperty"), ("operator", .str ">="), ("value", .str "2024-01-01"),
        ("logic", .str "and")] := by
    have hkind : SameName (textSpellings "type") "noteProperty" "note_property" := by
      right; left; decide
    have hlogic : SameName (textSpellings "logic") "AND" "and" := by
      right; left; decide
    refine ⟨_, sameName_other keySpellings, ?_⟩
    exact .cons ⟨rfl, .text hkind⟩ <| .cons ⟨rfl, .refl _⟩ <| .cons ⟨rfl, .refl _⟩ <|
      .cons ⟨rfl, .refl _⟩ <| .cons ⟨rfl, .refl _⟩ <| .cons ⟨rfl, .text hlogic⟩ .nil
  have hscope : Respelled [("kind", .str "children"), ("referenceNoteId", .str "root")]
      [("kind", .str "children"), ("noteId", .str "root")] :=
    ⟨_, sameName_other keySpellings, .cons ⟨rfl, .refl _⟩ <| .cons ⟨rfl, .refl _⟩ .nil⟩
  have hrespelled : SearchRequest.Respelled plainMembers otherMembers :=
    .cons ⟨rfl, .refl _ _⟩ <| .cons ⟨rfl, .criteria (.cons (.obj hcriterion) .nil)⟩ <|
      .cons ⟨rfl, .scope (.obj hscope)⟩ .nil
  have hdecode : decodeValue SearchRequest.decode (.obj plainMembers) = .ok datedSearch := by
    decide +kernel
  have htwice : SearchRequest.SpelledTwice twiceMembers :=
    .inl ⟨_, rfl, _, List.mem_cons_self, fun h => h.1 ⟨by decide, by decide⟩⟩
  exact ⟨hrespelled, hdecode, alias_spellings.1 _ _ _ hrespelled hdecode, htwice,
    alias_spellings.2 _ htwice⟩

end NoteTools
