import NoteTools.Proofs.Exchange
import NoteTools.Proofs.WrittenRecords

/-!
# What a refusal says

A reply that is not a success is a refusal, and a refusal has a code and a message. The server
writes them into the body as JSON, and whatever octets the body has, either it is JSON of that
shape, or the refusal has the reason phrase of its status for a code and the body itself for a
message.

Main definitions:

* `HoldsText`: the text that members hold under a key, empty if they hold nothing;
* `RefusalShape`: JSON that has a code and a message;
* `Http.Reply.Refuses`: the code and the message of a reply;
* `FailsOn`: the error of a call whose reply is of no use.

Results:

* `exists_ofList_of_openMembers`, `openMembers_of_admits`: when members are opened by fields that go
  by one name each;
* `decode_refusal_iff`: the decoder takes exactly what has the shape;
* `refusal_iff`, `Http.Reply.Refuses.unique`, `Http.Reply.exists_refuses`: a refusal is what the
  reply says, and every reply says one thing;
* `failsOn_of_decoded`: the errors of a reply.
-/

namespace NoteTools

open Http Json Text

/-! ## Specification -/

namespace Json

/-- Members hold a text under a key, once; the text is empty if they hold nothing there. -/
def HoldsText (key : String) (members : List (String × Scan)) (text : String) : Prop :=
  members.filter (fun m => m.1 = key) = [(key, .text text)] ∨
    members.filter (fun m => m.1 = key) = [] ∧ text = ""

/-- JSON that has a code and a message: an object that holds them under their names, or an array
that holds them in order. Either may be left out; other members only have to be passed over. -/
inductive RefusalShape : Scan → String → String → Prop
  | object {members : List (String × Scan)} {code message : String} :
    (∀ m ∈ members, m.1 ∉ ["code", "message"] → m.2.pass = .ok ()) →
    HoldsText "code" members code → HoldsText "message" members message →
    RefusalShape (.object (.ofList members)) code message
  | empty {ending : Items} : ending.Ends → RefusalShape (.array ending) "" ""
  | code {ending : Items} {code : String} : ending.Ends →
    RefusalShape (.array (.cons (.text code) ending)) code ""
  | both {rest : Items} {code message : String} : rest.Ends ∨ itemsEnd rest = .loose →
    RefusalShape (.array (.cons (.text code) (.cons (.text message) rest))) code message

/-- A text that is nothing but JSON that has a code and a message. -/
def RefusalText (gs : List Glyph) (code message : String) : Prop :=
  (Document.ofGlyphs gs).more = false ∧ RefusalShape (Document.ofGlyphs gs).value code message

end Json

/-- The code and the message of a reply that is not a success: those of its body, or else the reason
phrase of its status, and the body. -/
inductive Http.Reply.Refuses (reply : Reply) : String → String → Prop
  | told {code message : String} : RefusalText (Utf8.pieces reply.content) code message →
    reply.Refuses code message
  | untold : (∀ code message, ¬RefusalText (Utf8.pieces reply.content) code message) →
    reply.Refuses ((reason? reply.status).getD "UNKNOWN") (Utf8.lossy reply.content)

/-! ## Opening scanned objects -/

namespace Json

section
variable {slots : List Slot}

/-- The member is taken by its field, or passed over. -/
def Slot.Admits (slots : List Slot) (m : String × Scan) : Prop :=
  match slotOf? slots m.1 with
  | some slot => slot.check m.2 = .ok ()
  | none => m.2.pass = .ok ()

theorem ignore_ok_iff {s : Scan} : ignore s = .ok () ↔ s.pass = .ok () := by
  rw [ignore]
  cases s.pass <;> simp

/-- A field that goes by one name takes that name. -/
theorem slotOf?_of_plain (hplain : ∀ slot ∈ slots, slot.aliases = []) {key : String} {slot : Slot}
    (h : slotOf? slots key = some slot) : slot.name = key := by
  obtain ⟨hslot, hkey⟩ := mem_of_slotOf? h
  rw [Slot.keys, hplain slot hslot, List.mem_singleton] at hkey
  exact hkey.symm

theorem slotOf?_eq_none_iff (hplain : ∀ slot ∈ slots, slot.aliases = []) {key : String} :
    slotOf? slots key = none ↔ key ∉ slots.map Slot.name := by
  constructor
  · intro h hmem
    obtain ⟨slot, hslot, rfl⟩ := List.mem_map.mp hmem
    exact slotOf?_eq_none h hslot List.mem_cons_self
  · intro h
    cases hfound : slotOf? slots key with
    | none => rfl
    | some slot =>
      obtain rfl := slotOf?_of_plain hplain hfound
      exact absurd (List.mem_map_of_mem (mem_of_slotOf? hfound).1) h

/-- The members under the names of fields. -/
def taken (slots : List Slot) (scanned : List (String × Scan)) : List (String × Scan) :=
  scanned.filter fun m => m.1 ∈ slots.map Slot.name

theorem taken_cons_of_none (hplain : ∀ slot ∈ slots, slot.aliases = []) {m : String × Scan}
    {scanned : List (String × Scan)} (h : slotOf? slots m.1 = none) :
    taken slots (m :: scanned) = taken slots scanned :=
  List.filter_cons_of_neg (by simpa using (slotOf?_eq_none_iff hplain).mp h)

theorem taken_cons_of_some (hplain : ∀ slot ∈ slots, slot.aliases = []) {m : String × Scan}
    {scanned : List (String × Scan)} {slot : Slot} (h : slotOf? slots m.1 = some slot) :
    taken slots (m :: scanned) = m :: taken slots scanned := by
  refine List.filter_cons_of_pos (decide_eq_true ?_)
  rw [← slotOf?_of_plain hplain h]
  exact List.mem_map_of_mem (mem_of_slotOf? h).1

/-- What is opened is all there. Its values are those under the names of the fields; none of them is
given twice, or was seen before. -/
theorem exists_ofList_of_openMembers (hplain : ∀ slot ∈ slots, slot.aliases = [])
    {seen : List String} {members : Members} {values : List (String × Scan)}
    (h : openMembers slots seen members = .ok values) : ∃ scanned, members = .ofList scanned ∧
      values = taken slots scanned ∧
      ((values.map Prod.fst).Nodup ∧ ∀ key ∈ seen, key ∉ values.map Prod.fst) ∧
      ∀ m ∈ scanned, Slot.Admits slots m := by
  fun_induction openMembers slots seen members generalizing values with
  | case1 seen =>
    cases h
    exact ⟨[], rfl, rfl, by simp, by simp⟩
  | case2 => cases h
  | case3 => cases h
  | case4 seen value tail key hnone ih =>
    obtain ⟨⟨⟩, hpass, htail⟩ := bind_eq_ok_iff.mp h
    obtain ⟨scanned, rfl, hvalues, honce, hall⟩ := ih htail
    refine ⟨(key, value) :: scanned, rfl, ?_, honce, List.forall_mem_cons.mpr ⟨?_, hall⟩⟩
    · rw [taken_cons_of_none hplain hnone, hvalues]
    · simp only [Slot.Admits, hnone]
      exact ignore_ok_iff.mp hpass
  | case5 => cases h
  | case6 seen value tail key slot hslot hseen ih =>
    obtain ⟨⟨⟩, hcheck, h⟩ := bind_eq_ok_iff.mp h
    obtain ⟨rest, hrest, ⟨⟩⟩ := bind_eq_ok_iff.mp h
    obtain ⟨scanned, rfl, hvalues, ⟨hnodup, hunseen⟩, hall⟩ := ih hrest
    obtain rfl := slotOf?_of_plain hplain hslot
    rw [List.forall_mem_cons] at hunseen
    refine ⟨(slot.name, value) :: scanned, rfl, ?_, ⟨?_, ?_⟩,
      List.forall_mem_cons.mpr ⟨?_, hall⟩⟩
    · rw [taken_cons_of_some hplain hslot, hvalues]
    · exact List.nodup_cons.mpr ⟨hunseen.1, hnodup⟩
    · intro key hkey
      rw [List.map_cons, List.mem_cons, not_or]
      refine ⟨?_, hunseen.2 key hkey⟩
      rintro rfl
      exact hseen (List.contains_iff_mem.mpr hkey)
    · simp only [Slot.Admits, hslot]
      exact hcheck

/-- Members that are all there are opened when each is taken or passed over, and none is given twice
or was seen before. -/
theorem openMembers_of_admits (hplain : ∀ slot ∈ slots, slot.aliases = []) {seen : List String}
    {scanned : List (String × Scan)} (hnodup : ((taken slots scanned).map Prod.fst).Nodup)
    (hseen : ∀ key ∈ seen, key ∉ (taken slots scanned).map Prod.fst)
    (hall : ∀ m ∈ scanned, Slot.Admits slots m) :
    openMembers slots seen (.ofList scanned) = .ok (taken slots scanned) := by
  induction scanned generalizing seen with
  | nil => rfl
  | cons m scanned ih =>
    obtain ⟨key, value⟩ := m
    rw [List.forall_mem_cons] at hall
    obtain ⟨hfirst, hall⟩ := hall
    rw [Slot.Admits] at hfirst
    rw [Members.ofList, openMembers]
    dsimp only at hfirst ⊢
    cases hslot : slotOf? slots key with
    | none =>
      rw [hslot] at hfirst
      rw [taken_cons_of_none hplain hslot] at hnodup hseen ⊢
      simp only [ignore_ok_iff.mpr hfirst, ih hnodup hseen hall]
      rfl
    | some slot =>
      obtain rfl := slotOf?_of_plain hplain hslot
      rw [hslot] at hfirst
      rw [taken_cons_of_some hplain hslot] at hnodup hseen ⊢
      rw [List.map_cons, List.nodup_cons] at hnodup
      have hunseen : seen.contains slot.name = false := by
        rw [List.contains_eq_mem, decide_eq_false_iff_not]
        exact fun hmem => hseen _ hmem List.mem_cons_self
      have hrest : openMembers slots (slot.name :: seen) (.ofList scanned) =
          .ok (taken slots scanned) := by
        refine ih hnodup.2 (List.forall_mem_cons.mpr ⟨hnodup.1, fun key hmem hthere => ?_⟩) hall
        exact hseen key hmem (List.mem_cons_of_mem _ hthere)
      simp only [hunseen, hfirst, hrest]
      rfl

end

/-! ## The decoder of refusals -/

section
variable {members scanned values : List (String × Scan)} {key text : String}

/-- Among members without equal keys, a key is looked up by filtering. -/
theorem filter_eq_lookup (hnodup : (values.map Prod.fst).Nodup) :
    values.filter (fun m => m.1 = key) = ((values.lookup key).map fun s => (key, s)).toList := by
  induction values with
  | nil => rfl
  | cons m values ih =>
    obtain ⟨key', s⟩ := m
    rw [List.map_cons, List.nodup_cons] at hnodup
    by_cases hkey : key' = key
    · subst hkey
      have hnone : values.filter (fun m => m.1 = key') = [] := by
        rw [List.filter_eq_nil_iff]
        rintro m hm heq
        exact hnodup.1 (List.mem_map.mpr ⟨m, hm, of_decide_eq_true heq⟩)
      rw [List.filter_cons_of_pos (by simp), hnone, List.lookup_cons_self]
      rfl
    · rw [List.filter_cons_of_neg (by simpa using hkey), ih hnodup.2, List.lookup_cons,
        beq_eq_false_iff_ne.mpr (Ne.symm hkey)]

theorem text_ok_iff {s : Scan} : Decoder.text s = .ok text ↔ s = .text text := by
  cases s <;> simp [Decoder.text]

/-- A field for a text that may be left out has the text that is held under its name. -/
theorem get_text_iff (hnodup : (values.map Prod.fst).Nodup) (absent : String → DecodeError) :
    (Opened.mk values absent).get (.withDefault key Decoder.text "") = .ok text ↔
      HoldsText key values text := by
  rw [HoldsText, filter_eq_lookup hnodup, Opened.get]
  dsimp only [Field.withDefault]
  cases values.lookup key with
  | none => simp [eq_comm]
  | some s => simp [text_ok_iff]

/-- Members under other keys have no say in what is held under a key. -/
theorem holdsText_taken_iff {slots : List Slot} (hkey : key ∈ slots.map Slot.name) :
    HoldsText key (taken slots scanned) text ↔ HoldsText key scanned text := by
  have hfilter : (taken slots scanned).filter (fun m => m.1 = key) =
      scanned.filter fun m => m.1 = key := by
    rw [taken, List.filter_filter]
    refine List.filter_congr fun m _ => ?_
    by_cases h : m.1 = key
    · simp [h, hkey]
    · simp [h]
  rw [HoldsText, hfilter, HoldsText]

theorem HoldsText.eq_of_mem (h : HoldsText key members text) {s : Scan} (hs : (key, s) ∈ members) :
    s = .text text := by
  have hmem : (key, s) ∈ members.filter fun m => m.1 = key :=
    List.mem_filter.mpr ⟨hs, decide_eq_true rfl⟩
  obtain hone | ⟨hnone, -⟩ := h
  · rw [hone, List.mem_singleton] at hmem
    exact (Prod.mk.inj hmem).2
  · rw [hnone] at hmem
    cases hmem

/-- Names under which nothing but one text is held are given once at most. -/
theorem nodup_taken_of_holdsText {slots : List Slot}
    (h : ∀ key ∈ slots.map Slot.name, ∃ text, HoldsText key members text) :
    ((taken slots members).map Prod.fst).Nodup := by
  rw [List.nodup_iff_count_le_one]
  intro key
  by_cases hkey : key ∈ slots.map Slot.name
  · obtain ⟨text, htext⟩ := h key hkey
    rw [← holdsText_taken_iff hkey] at htext
    have hcount : List.count key ((taken slots members).map Prod.fst) =
        ((taken slots members).filter fun m => m.1 = key).length := by
      rw [List.count_eq_countP, List.countP_map, List.countP_eq_length_filter]
      rfl
    rw [hcount]
    obtain hone | ⟨hnone, -⟩ := htext
    · rw [hone]
      exact Nat.le_refl 1
    · rw [hnone]
      exact Nat.zero_le 1
  · rw [List.count_eq_zero_of_not_mem]
    · exact Nat.zero_le 1
    · intro hmem
      obtain ⟨m, hm, rfl⟩ := List.mem_map.mp hmem
      exact hkey (of_decide_eq_true (List.mem_filter.mp hm).2)

end

/-- The fields of a refusal. -/
def refusalSlots : List Slot :=
  [(Field.withDefault "code" Decoder.text "").slot,
    (Field.withDefault "message" Decoder.text "").slot]

theorem names_refusalSlots : refusalSlots.map Slot.name = ["code", "message"] := rfl

theorem refusalSlots_plain : ∀ slot ∈ refusalSlots, slot.aliases = [] := by
  simp [refusalSlots, Field.slot, Field.withDefault]

theorem refusalSlots_check (text : String) :
    ∀ slot ∈ refusalSlots, slot.check (.text text) = .ok () := by
  simp only [refusalSlots, List.forall_mem_cons]
  exact ⟨rfl, rfl, by simp⟩

/-- The decoder opens a record and gets both fields. -/
theorem decode_refusal_eq_ok {s : Scan} {code message : String} :
    Refusal.decode s = .ok (code, message) ↔
      ∃ r, openRecord "ApiErrorBody" refusalSlots s = .ok r ∧
        r.get (.withDefault "code" Decoder.text "") = .ok code ∧
        r.get (.withDefault "message" Decoder.text "") = .ok message := by
  unfold Refusal.decode
  simp only [bind_eq_ok_iff]
  refine exists_congr fun r => and_congr_right fun _ => ?_
  constructor
  · rintro ⟨code, hcode, message, hmessage, ⟨⟩⟩
    exact ⟨hcode, hmessage⟩
  · rintro ⟨hcode, hmessage⟩
    exact ⟨code, hcode, message, hmessage, rfl⟩

theorem decode_refusal_object {members : Members} {code message : String} :
    Refusal.decode (.object members) = .ok (code, message) ↔
      RefusalShape (.object members) code message := by
  have hcode : "code" ∈ refusalSlots.map Slot.name := by decide
  have hmessage : "message" ∈ refusalSlots.map Slot.name := by decide
  rw [decode_refusal_eq_ok]
  constructor
  · rintro ⟨r, hopen, hgets⟩
    obtain ⟨values, hvalues, ⟨⟩⟩ := bind_eq_ok_iff.mp hopen
    obtain ⟨scanned, rfl, rfl, ⟨hnodup, -⟩, hall⟩ :=
      exists_ofList_of_openMembers refusalSlots_plain hvalues
    rw [get_text_iff hnodup, get_text_iff hnodup, holdsText_taken_iff hcode,
      holdsText_taken_iff hmessage] at hgets
    refine .object (fun m hm hkey => ?_) hgets.1 hgets.2
    have hadmits := hall m hm
    rwa [Slot.Admits, (slotOf?_eq_none_iff refusalSlots_plain).mpr hkey] at hadmits
  · rintro ⟨hpass, hcode', hmessage'⟩
    next scanned =>
    have hholds : ∀ key ∈ refusalSlots.map Slot.name, ∃ text, HoldsText key scanned text := by
      intro key hkey
      obtain rfl | rfl : key = "code" ∨ key = "message" := by
        simpa [names_refusalSlots] using hkey
      · exact ⟨code, hcode'⟩
      · exact ⟨message, hmessage'⟩
    have hnodup := nodup_taken_of_holdsText hholds
    have hall : ∀ m ∈ scanned, Slot.Admits refusalSlots m := by
      rintro ⟨key, s⟩ hm
      rw [Slot.Admits]
      cases hslot : slotOf? refusalSlots key with
      | none => exact hpass _ hm ((slotOf?_eq_none_iff refusalSlots_plain).mp hslot)
      | some slot =>
        obtain rfl := slotOf?_of_plain refusalSlots_plain hslot
        obtain ⟨hmem, -⟩ := mem_of_slotOf? hslot
        obtain ⟨text, htext⟩ := hholds _ (List.mem_map_of_mem hmem)
        rw [htext.eq_of_mem hm]
        exact refusalSlots_check text slot hmem
    have hopen : openMembers refusalSlots [] (.ofList scanned) =
        .ok (taken refusalSlots scanned) :=
      openMembers_of_admits refusalSlots_plain hnodup (by simp) hall
    refine ⟨⟨taken refusalSlots scanned, .missingField⟩, ?_, ?_, ?_⟩
    · rw [openRecord, hopen]
      rfl
    · exact (get_text_iff hnodup _).mpr ((holdsText_taken_iff hcode).mpr hcode')
    · exact (get_text_iff hnodup _).mpr ((holdsText_taken_iff hmessage).mpr hmessage')

theorem closeItems_ok_iff {taken : Nat} {rest : Items} :
    closeItems taken rest = .ok () ↔ rest.Ends ∨ itemsEnd rest = .loose := by
  cases rest with
  | closed | counted | loose => exact iff_of_true rfl (.inl trivial)
  | stop s => simp [closeItems, Items.Ends, itemsEnd]
  | cons head tail =>
    rw [or_iff_right (show ¬(Items.cons head tail).Ends from id)]
    cases hend : itemsEnd (.cons head tail) <;> simp [closeItems, hend]

theorem decode_refusal_pair (code message : String) (rest : Items) :
    Refusal.decode (.array (.cons (.text code) (.cons (.text message) rest))) =
      (closeItems 2 rest).map fun _ => (code, message) := by
  show (closeItems 2 rest >>= fun _ => _) >>= _ = _
  cases closeItems 2 rest <;> rfl

theorem decode_refusal_array {items : Items} {code message : String} :
    Refusal.decode (.array items) = .ok (code, message) ↔
      RefusalShape (.array items) code message := by
  constructor
  · intro h
    rcases items with _ | _ | _ | _ | ⟨head, tail⟩
    case closed | counted | loose =>
      cases h
      exact .empty trivial
    case stop => cases h
    obtain ⟨code', rfl⟩ : ∃ code', head = .text code' := by
      cases head with
      | text code' => exact ⟨code', rfl⟩
      | _ => cases h
    rcases tail with _ | _ | _ | _ | ⟨second, rest⟩
    case closed | counted | loose =>
      cases h
      exact .code trivial
    case stop => cases h
    obtain ⟨message', rfl⟩ : ∃ message', second = .text message' := by
      cases second with
      | text message' => exact ⟨message', rfl⟩
      | _ => cases h
    rw [decode_refusal_pair] at h
    cases hclose : closeItems 2 rest with
    | error e =>
      rw [hclose] at h
      cases h
    | ok _ =>
      rw [hclose] at h
      cases h
      exact .both (closeItems_ok_iff.mp hclose)
  · rintro (_ | hends | hends | hrest)
    · cases items <;> first | rfl | exact hends.elim
    · next ending => cases ending <;> first | rfl | exact hends.elim
    · rw [decode_refusal_pair, closeItems_ok_iff.mpr hrest]
      rfl

/-- The decoder takes exactly the JSON that has a code and a message. -/
theorem decode_refusal_iff {s : Scan} {code message : String} :
    Refusal.decode s = .ok (code, message) ↔ RefusalShape s code message := by
  cases s with
  | object members => exact decode_refusal_object
  | array items => exact decode_refusal_array
  | _ => exact iff_of_false (by rintro ⟨⟩) (by rintro ⟨⟩)

/-- A text is nothing but such JSON exactly when it is decoded. -/
theorem decodeGlyphs_refusal_iff {gs : List Glyph} {code message : String} :
    decodeGlyphs Refusal.decode gs = .ok (code, message) ↔ RefusalText gs code message := by
  rw [decodeGlyphs, RefusalText, bind_eq_ok_iff]
  constructor
  · rintro ⟨x, hdecode, h⟩
    split at h
    · cases h
    next hmore =>
      cases h
      exact ⟨eq_false_of_ne_true hmore, decode_refusal_iff.mp hdecode⟩
  · rintro ⟨hmore, hshape⟩
    refine ⟨_, decode_refusal_iff.mpr hshape, ?_⟩
    rw [hmore]
    rfl

end Json

/-! ## Refusals -/

section
variable {reply : Reply} {code message : String}

/-- **A refusal is what the reply says.** -/
theorem refusal_iff :
    refusal reply = .refused reply.status code message ↔ reply.Refuses code message := by
  unfold refusal
  dsimp only
  cases hdecode : decodeGlyphs Refusal.decode (Utf8.pieces reply.content) with
  | ok x =>
    obtain ⟨code', message'⟩ := x
    have htold := decodeGlyphs_refusal_iff.mp hdecode
    constructor
    · rintro ⟨⟩
      exact .told htold
    · rintro (h | h)
      · rw [← decodeGlyphs_refusal_iff, hdecode] at h
        cases h
        rfl
      · exact absurd htold (h code' message')
  | error e =>
    have huntold (code message : String) :
        ¬RefusalText (Utf8.pieces reply.content) code message := by
      rw [← decodeGlyphs_refusal_iff, hdecode]
      rintro ⟨⟩
    constructor
    · rintro ⟨⟩
      exact .untold huntold
    · rintro (h | h)
      · exact absurd h (huntold code message)
      · rfl

example : refusal ⟨409, none, Utf8.encode "\x7b\"code\":\"LOCKED\"\x7d"⟩ =
    .refused 409 "LOCKED" "" := by
  decide +kernel

example : refusal ⟨404, none, Utf8.encode "gone"⟩ = .refused 404 "Not Found" "gone" := by
  decide +kernel

/-- A refusal has the status of its reply. -/
theorem refusal_eq_refused (reply : Reply) :
    ∃ code message, refusal reply = .refused reply.status code message := by
  unfold refusal
  dsimp only
  split
  · exact ⟨_, _, rfl⟩
  · exact ⟨_, _, rfl⟩

theorem Http.Reply.exists_refuses (reply : Reply) : ∃ code message, reply.Refuses code message := by
  obtain ⟨code, message, h⟩ := refusal_eq_refused reply
  exact ⟨code, message, refusal_iff.mp h⟩

/-- A reply says one thing. -/
theorem Http.Reply.Refuses.unique {code' message' : String} (h : reply.Refuses code message)
    (h' : reply.Refuses code' message') : code = code' ∧ message = message' := by
  have heq := (refusal_iff.mpr h).symm.trans (refusal_iff.mpr h')
  exact (ApiError.refused.inj heq).2

end

/-! ## Replies and errors -/

/-- The error of a call whose reply is of no use: the note is missing if the reply says so, and else
the server has failed. -/
def FailsOn (reply : Reply) (error : ServiceError) : Prop :=
  (reply.status = 404 ∧ ∃ message, error = .notFound message) ∨
    (reply.status ≠ 404 ∧ ∃ cause, error = .serverFailure cause)

namespace FailsOn

variable {reply : Reply} {error : ServiceError}

theorem notFound_iff (h : FailsOn reply error) :
    (∃ message, error = .notFound message) ↔ reply.status = 404 := by
  obtain ⟨hstatus, hmessage⟩ | ⟨hstatus, cause, rfl⟩ := h
  · exact iff_of_true hmessage hstatus
  · exact iff_of_false (by rintro ⟨message, ⟨⟩⟩) hstatus

theorem ne_invalidRequest (h : FailsOn reply error) (fault : RequestFault) :
    error ≠ .invalidRequest fault := by
  obtain ⟨-, message, rfl⟩ | ⟨-, cause, rfl⟩ := h <;> rintro ⟨⟩

theorem ne_date (h : FailsOn reply error) (e : DateError) : error ≠ .date e := by
  obtain ⟨-, message, rfl⟩ | ⟨-, cause, rfl⟩ := h <;> rintro ⟨⟩

end FailsOn

section
variable {reply : Reply}

theorem status_ne_of_isSuccess (h : reply.isSuccess = true) : reply.status ≠ 404 := by
  rw [Reply.isSuccess, Bool.and_eq_true, decide_eq_true_eq, decide_eq_true_eq] at h
  omega

/-- A refusal that does not say that the note is missing is a failure of the server. -/
theorem ofApi_refused {status : Nat} (h : status ≠ 404) (code message : String) :
    ServiceError.ofApi (.refused status code message) =
      .serverFailure (.refused status code message) := by
  unfold ServiceError.ofApi
  split
  next heq => cases heq
  next heq => exact absurd (ApiError.refused.inj heq).1 h
  next => rfl

theorem failsOn_refusal (reply : Reply) : FailsOn reply (.ofApi (refusal reply)) := by
  obtain ⟨code, message, hrefusal⟩ := refusal_eq_refused reply
  rw [hrefusal]
  by_cases hstatus : reply.status = 404
  · rw [hstatus]
    exact .inl ⟨hstatus, message, rfl⟩
  · exact .inr ⟨hstatus, _, ofApi_refused hstatus code message⟩

/-- A call that decodes its reply fails on a refusal, and on a success that is not decoded. -/
theorem failsOn_of_decoded {α : Type} {d : Decoder α} {error : ApiError}
    (h : ((Client.accept reply).bind fun reply =>
      (decodeGlyphs d (Utf8.pieces reply.content)).mapError .undecodable) = .error error) :
    FailsOn reply (.ofApi error) := by
  rw [Client.accept] at h
  cases hsuccess : reply.isSuccess with
  | false =>
    rw [hsuccess] at h
    obtain rfl : refusal reply = error := Except.error.inj h
    exact failsOn_refusal reply
  | true =>
    rw [hsuccess, if_pos rfl, Except.bind] at h
    cases hdecode : decodeGlyphs d (Utf8.pieces reply.content) with
    | ok a =>
      rw [hdecode] at h
      cases h
    | error e =>
      rw [hdecode] at h
      obtain rfl : ApiError.undecodable e = error := Except.error.inj h
      exact .inr ⟨status_ne_of_isSuccess hsuccess, _, rfl⟩

end

/-! ## Bodies that have to decode -/

/-- The body of a reply decodes as a value. -/
def HasBody {α : Type} (d : Json.Decoder α) (reply : Reply) : Prop :=
  ∃ a, Json.decodeGlyphs d (Utf8.pieces reply.content) = .ok a

/-- What is wrong with a reply whose body has to decode. -/
def bodyFault? {α : Type} (d : Json.Decoder α) (reply : Reply) : Option ApiError :=
  match Json.decodeGlyphs d (Utf8.pieces reply.content) with
  | .ok _ => none
  | .error e => some (.undecodable e)

section
variable {α : Type} {d : Json.Decoder α} {reply : Reply}

theorem bodyFault?_eq_none_iff : bodyFault? d reply = none ↔ HasBody d reply := by
  unfold bodyFault? HasBody
  cases Json.decodeGlyphs d (Utf8.pieces reply.content) <;> simp

theorem bodyFault?_eq_some {error : ApiError} (h : bodyFault? d reply = some error) :
    ∃ e, error = .undecodable e := by
  unfold bodyFault? at h
  cases hdecode : Json.decodeGlyphs d (Utf8.pieces reply.content) with
  | ok a =>
    rw [hdecode] at h
    cases h
  | error e =>
    rw [hdecode] at h
    exact ⟨e, (Option.some.inj h).symm⟩

theorem decoded_error_iff (reply : Reply) (error : ApiError) :
    (Json.decodeGlyphs d (Utf8.pieces reply.content)).mapError .undecodable = .error error ↔
      bodyFault? d reply = some error := by
  unfold bodyFault?
  cases Json.decodeGlyphs d (Utf8.pieces reply.content) with
  | ok a => exact iff_of_false nofun nofun
  | error e => exact ⟨by rintro ⟨⟩; rfl, by rintro ⟨⟩; rfl⟩

end

end NoteTools
