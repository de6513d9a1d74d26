import NoteTools.Proofs.RequestForms
import NoteTools.Proofs.ValueDecoding

/-!
# Requests are read back

Where a key of a request or one of its texts has two spellings, the request is written with the main
one. What is written is stated as a schema: it lists the main keys, says which of them are always
there, and gives the texts that stand for connectors and kinds. The request is decoded from what is
written of it, as a value and as text, and from the row of its fields.

Main definitions:

* `Criterion.spelling`, `Scope.spelling` and the spellings of the requests;
* `Spells`: members that follow the fields of a schema in order;
* `RequestRoundTrip`: values are decoded from what is written of them.

Results:

* `Spells.accepts`: what follows the fields of a schema in order is accepted;
* `Criterion.accepts_toJson`, `Scope.accepts_toJson` and so on: the main spellings are written;
* `requests_roundTrip`: criteria, scopes and requests are decoded from what is written of them.
-/

namespace NoteTools

open Json

/-! ## The main spellings -/

/-- The spelling of criteria. -/
def Criterion.spelling : Schema :=
  .record (some false) ["property", "type"] [] [
    ("property", .anyText),
    ("type", .text none ["label", "relation", "noteProperty", "fulltext"]),
    ("op", .anyText),
    ("value", .anyText),
    ("logic", .text none ["AND", "OR"])]

/-- The spelling of scopes. -/
def Scope.spelling : Schema :=
  .record (some false) ["kind", "referenceNoteId"] [] [
    ("kind", .text none ["children", "descendants"]),
    ("referenceNoteId", .anyText)]

/-- The spelling of requests to search. -/
def SearchRequest.spelling : Schema :=
  .record (some false) ["text", "criteria", "hierarchy", "limit", "includeArchived"] [] [
    ("text", .nullable .anyText),
    ("criteria", .list Criterion.spelling),
    ("hierarchy", .nullable Scope.spelling),
    ("limit", .nullable (.whole 0)),
    ("includeArchived", .truth)]

/-- The spelling of requests to read a note. -/
def GetRequest.spelling : Schema :=
  .record (some false) ["noteId", "includeContent"] [] [
    ("noteId", .anyText),
    ("includeContent", .truth)]

/-- The spelling of requests to create a note. -/
def CreateRequest.spelling : Schema :=
  .record (some false) ["parentNoteId", "title", "type", "content", "mime"] [] [
    ("parentNoteId", .anyText),
    ("title", .anyText),
    ("type", .anyText),
    ("content", .anyText),
    ("mime", .nullable .anyText)]

/-- The spelling of requests to change a note. -/
def UpdateRequest.spelling : Schema :=
  .record (some false) ["noteId", "title", "type", "mime", "content", "createRevision"] [] [
    ("noteId", .anyText),
    ("title", .nullable .anyText),
    ("type", .nullable .anyText),
    ("mime", .nullable .anyText),
    ("content", .nullable .anyText),
    ("createRevision", .truth)]

/-- The spelling of requests to delete a note. -/
def DeleteRequest.spelling : Schema :=
  .record (some false) ["noteId"] [] [("noteId", .anyText)]

/-! ### Objects that are spelled in order -/

/-- Members that are spelled as the fields of a schema, in order. Some may be left out. -/
inductive Spells : List (String × Schema) → List (String × Json) → Prop
  | nil : Spells [] []
  | given {key : String} {s : Schema} {j : Json} {fields : List (String × Schema)}
    {members : List (String × Json)} :
    s.Accepts false j → Spells fields members → Spells ((key, s) :: fields) ((key, j) :: members)
  | omitted {key : String} {s : Schema} {fields : List (String × Schema)}
    {members : List (String × Json)} :
    Spells fields members → Spells ((key, s) :: fields) members

section
variable {fields fields' : List (String × Schema)} {members members' : List (String × Json)}

theorem Spells.append (h : Spells fields members) (h' : Spells fields' members') :
    Spells (fields ++ fields') (members ++ members') := by
  induction h with
  | nil => exact h'
  | given haccepts _ ih => exact .given haccepts ih
  | omitted _ ih => exact .omitted ih

theorem Spells.textMember? {key : String} {s : Schema} {text : Option String}
    (h : ∀ t, text = some t → s.Accepts false (.str t)) :
    Spells [(key, s)] (Json.textMember? key text) := by
  cases text with
  | none => exact .omitted .nil
  | some t => exact .given (h t rfl) .nil

theorem Spells.keys_subset (h : Spells fields members) :
    ∀ m ∈ members, m.1 ∈ fields.map Prod.fst := by
  induction h with
  | nil => exact fun m hm => absurd hm List.not_mem_nil
  | given _ _ ih =>
    intro m hm
    obtain rfl | hm := List.mem_cons.mp hm
    · exact List.mem_cons_self
    · exact List.mem_cons_of_mem _ (ih m hm)
  | omitted _ ih => exact fun m hm => List.mem_cons_of_mem _ (ih m hm)

theorem acceptsFields_cons_of_notMem {m : String × Json} (h : m.1 ∉ fields.map Prod.fst)
    (haccepts : Schema.AcceptsFields fields members) :
    Schema.AcceptsFields fields (m :: members) := by
  induction fields with
  | nil => trivial
  | cons field fields ih =>
    obtain ⟨key, s⟩ := field
    rw [List.map_cons, List.mem_cons, not_or] at h
    rw [Schema.AcceptsFields] at haccepts ⊢
    refine ⟨fun j hj => haccepts.1 j ?_, ih h.2 haccepts.2⟩
    refine (List.mem_cons.mp hj).resolve_left ?_
    rintro rfl
    exact h.1 rfl

theorem Spells.acceptsFields (h : Spells fields members) (hnodup : (fields.map Prod.fst).Nodup) :
    Schema.AcceptsFields fields members := by
  induction h with
  | nil => trivial
  | @given key s j fields members haccepts hrest ih =>
    rw [List.map_cons, List.nodup_cons] at hnodup
    refine ⟨fun i hi => ?_, acceptsFields_cons_of_notMem hnodup.1 (ih hnodup.2)⟩
    -- The key stands nowhere behind the first member, for the fields have different keys.
    obtain heq | hi := List.mem_cons.mp hi
    · obtain ⟨-, rfl⟩ := Prod.mk.inj heq
      exact haccepts
    · exact absurd (hrest.keys_subset _ hi) hnodup.1
  | @omitted key s fields members hrest ih =>
    rw [List.map_cons, List.nodup_cons] at hnodup
    exact ⟨fun i hi => absurd (hrest.keys_subset _ hi) hnodup.1, ih hnodup.2⟩

/-- An object that is spelled in order is accepted. -/
theorem Spells.accepts {required : List String} (h : Spells fields members)
    (hnodup : (fields.map Prod.fst).Nodup)
    (hrequired : ∀ key ∈ required, key ∈ members.map Prod.fst) :
    (Schema.record (some false) required [] fields).Accepts false (.obj members) :=
  Schema.accepts_record_iff.mpr
    ⟨members, rfl, fun _ => h.keys_subset, hrequired, .inl rfl, h.acceptsFields hnodup⟩

end

/-! ### What is written -/

theorem accepts_str (s : String) : Schema.anyText.Accepts false (.str s) :=
  .inr ⟨s, rfl, .inl rfl⟩

theorem accepts_bool (b : Bool) : Schema.truth.Accepts false (.bool b) :=
  .inr ⟨b, rfl⟩

theorem accepts_choice {choices : List String} {s : String} (h : s ∈ choices) :
    (Schema.text none choices).Accepts false (.str s) :=
  .inr ⟨s, rfl, .inr h⟩

theorem accepts_null (s : Schema) : s.nullable.Accepts false .null :=
  Schema.accepts_nullable_iff.mpr (.inl rfl)

theorem accepts_some {s : Schema} {j : Json} (h : s.Accepts false j) : s.nullable.Accepts false j :=
  Schema.accepts_nullable_iff.mpr (.inr h)

theorem accepts_ofText? (text : Option String) :
    Schema.anyText.nullable.Accepts false (ofText? text) := by
  cases text with
  | none => exact accepts_null _
  | some s => exact accepts_some (accepts_str s)

theorem accepts_limit (limit : Option UInt32) :
    (Schema.whole 0).nullable.Accepts false ((limit.map fun n => nat n.toNat).getD .null) := by
  cases limit with
  | none => exact accepts_null _
  | some n => exact accepts_some (.inr ⟨.int n.toNat, rfl, trivial, Int.natCast_nonneg _⟩)

theorem Criterion.accepts_toJson (c : Criterion) : Criterion.spelling.Accepts false c.toJson := by
  have hkind : c.kind.name ∈ ["label", "relation", "noteProperty", "fulltext"] := by
    cases c.kind <;> decide
  have hconnector (s : String) (hs : c.connector.map Connector.name = some s) :
      s ∈ ["AND", "OR"] := by
    obtain ⟨connector, -, rfl⟩ := Option.map_eq_some_iff.mp hs
    cases connector <;> decide
  have hkey : Spells [("property", .anyText),
      ("type", .text none ["label", "relation", "noteProperty", "fulltext"])]
      [("property", .str c.property), ("type", .str c.kind.name)] :=
    .given (accepts_str _) <| .given (accepts_choice hkind) .nil
  have hop : Spells [("op", .anyText)] (textMember? "op" c.op) :=
    .textMember? fun s _ => accepts_str s
  have hvalue : Spells [("value", .anyText)] (textMember? "value" c.value) :=
    .textMember? fun s _ => accepts_str s
  have hlogic : Spells [("logic", .text none ["AND", "OR"])]
      (textMember? "logic" (c.connector.map Connector.name)) :=
    .textMember? fun s hs => accepts_choice (hconnector s hs)
  exact (((hkey.append hop).append hvalue).append hlogic).accepts (by decide) (by simp)

theorem Scope.accepts_toJson (s : Scope) : Scope.spelling.Accepts false s.toJson := by
  have hkind : s.kind.name ∈ ["children", "descendants"] := by
    cases s.kind <;> decide
  refine Spells.accepts ?_ (by decide) fun _ hkey => hkey
  exact .given (accepts_choice hkind) <| .given (accepts_str _) .nil

theorem SearchRequest.accepts_toJson (r : SearchRequest) :
    SearchRequest.spelling.Accepts false r.toJson := by
  have hcriteria : (Schema.list Criterion.spelling).Accepts false
      (.arr (r.criteria.map Criterion.toJson)) := by
    refine .inr ⟨_, rfl, fun item hitem => ?_⟩
    obtain ⟨c, -, rfl⟩ := List.mem_map.mp hitem
    exact c.accepts_toJson
  have hscope : Scope.spelling.nullable.Accepts false ((r.scope.map Scope.toJson).getD .null) := by
    cases r.scope with
    | none => exact accepts_null _
    | some s => exact accepts_some s.accepts_toJson
  refine Spells.accepts ?_ (by decide) fun _ hkey => hkey
  exact .given (accepts_ofText? _) <| .given hcriteria <| .given hscope <|
    .given (accepts_limit _) <| .given (accepts_bool _) .nil

theorem GetRequest.accepts_toJson (r : GetRequest) :
    GetRequest.spelling.Accepts false r.toJson := by
  refine Spells.accepts ?_ (by decide) fun _ hkey => hkey
  exact .given (accepts_str _) <| .given (accepts_bool _) .nil

theorem CreateRequest.accepts_toJson (r : CreateRequest) :
    CreateRequest.spelling.Accepts false r.toJson := by
  refine Spells.accepts ?_ (by decide) fun _ hkey => hkey
  exact .given (accepts_str _) <| .given (accepts_str _) <| .given (accepts_str _) <|
    .given (accepts_str _) <| .given (accepts_ofText? _) .nil

theorem UpdateRequest.accepts_toJson (r : UpdateRequest) :
    UpdateRequest.spelling.Accepts false r.toJson := by
  refine Spells.accepts ?_ (by decide) fun _ hkey => hkey
  exact .given (accepts_str _) <| .given (accepts_ofText? _) <| .given (accepts_ofText? _) <|
    .given (accepts_ofText? _) <| .given (accepts_ofText? _) <| .given (accepts_bool _) .nil

theorem DeleteRequest.accepts_toJson (r : DeleteRequest) :
    DeleteRequest.spelling.Accepts false r.toJson := by
  refine Spells.accepts ?_ (by decide) fun _ hkey => hkey
  exact .given (accepts_str _) .nil

/-! ## The numbers that are written -/

theorem exact_limit (limit : Option UInt32) :
    Exact ((limit.map fun n => nat n.toNat).getD .null) := by
  cases limit with
  | none => trivial
  | some n =>
    have hlt := n.toNat_lt
    show Fits (n.toNat : Int)
    constructor <;> omega

theorem Criterion.exact_toJson (c : Criterion) : Exact c.toJson := by
  have hkey : ExactMembers [("property", .str c.property), ("type", .str c.kind.name)] :=
    ⟨trivial, trivial, trivial⟩
  have hmember (key : String) (text : Option String) := exactMembers_textMember? key text
  exact exactMembers_append (exactMembers_append (exactMembers_append hkey (hmember _ _))
    (hmember _ _)) (hmember _ _)

theorem Scope.exact_toJson (s : Scope) : Exact s.toJson :=
  ⟨trivial, trivial, trivial⟩

theorem SearchRequest.exact_toJson (r : SearchRequest) : Exact r.toJson := by
  have hcriteria : Exact (.arr (r.criteria.map Criterion.toJson)) :=
    exact_arr_map fun c _ => c.exact_toJson
  have hscope : Exact ((r.scope.map Scope.toJson).getD .null) := by
    cases r.scope with
    | none => trivial
    | some s => exact s.exact_toJson
  exact ⟨exact_ofText? _, hcriteria, hscope, exact_limit _, trivial, trivial⟩

theorem GetRequest.exact_toJson (r : GetRequest) : Exact r.toJson :=
  ⟨trivial, trivial, trivial⟩

theorem CreateRequest.exact_toJson (r : CreateRequest) : Exact r.toJson :=
  ⟨trivial, trivial, trivial, trivial, exact_ofText? _, trivial⟩

theorem UpdateRequest.exact_toJson (r : UpdateRequest) : Exact r.toJson :=
  ⟨trivial, exact_ofText? _, exact_ofText? _, exact_ofText? _, exact_ofText? _, trivial, trivial⟩

theorem DeleteRequest.exact_toJson (r : DeleteRequest) : Exact r.toJson :=
  ⟨trivial, trivial⟩

/-! ## Round trips -/

/-- Values are decoded from what is written of them: from the object, as a value and as text, and
from the array of their fields. The object has the main spellings. -/
structure RequestRoundTrip {α : Type} (decode : Decoder α) (toJson : α → Json)
    (Row : α → Json → Prop) (spelling : Schema) : Prop where
  /-- The object of a value is decoded as the value. -/
  written : ∀ a, decodeValue decode (toJson a) = .ok a
  /-- The text of the object is decoded as the value. -/
  text : ∀ a, decodeText decode (toJson a).text = .ok a
  /-- The fields of a value, in order, are decoded as the value. -/
  row : ∀ a j, Row a j → decodeValue decode j = .ok a
  /-- The main spellings are written. -/
  spelled : ∀ a, spelling.Accepts false (toJson a)
  /-- What any value was decoded as is written and decoded again, and is the same. -/
  rewritten : ∀ j a, decodeValue decode j = .ok a → decodeValue decode (toJson a) = .ok a

/-- What is decoded in both forms, however it is scanned, is decoded from what is written of it. -/
theorem requestRoundTrip_of_decode {α : Type} {decode : Decoder α} {toJson : α → Json}
    {Row : α → Json → Prop} {spelling : Schema} (hexact : ∀ a, Exact (toJson a))
    (hspelled : ∀ a, spelling.Accepts false (toJson a))
    (hobj : ∀ {view}, Faithful view → ∀ a, decode (view (toJson a)) = .ok a)
    (hrow : ∀ {view}, Faithful view → ∀ {a j}, Row a j → decode (view j) = .ok a) :
    RequestRoundTrip decode toJson Row spelling where
  written := hobj faithful_ofJson
  text a := by
    have hview : Faithful (Scan.asIs .closed) := faithful_asIs trivial
    exact decodeText_text (hexact a) (hobj hview a)
  row _ _ := hrow faithful_ofJson
  spelled := hspelled
  rewritten _ a _ := hobj faithful_ofJson a

/-- **Requests are decoded from what is written of them**, and so are the criteria and the scope of
a search. -/
theorem requests_roundTrip :
    RequestRoundTrip Criterion.decode Criterion.toJson (fun c j => j = c.row) Criterion.spelling ∧
    RequestRoundTrip Scope.decode Scope.toJson (fun s j => j = s.row) Scope.spelling ∧
    RequestRoundTrip SearchRequest.decode SearchRequest.toJson SearchRequest.Row
      SearchRequest.spelling ∧
    RequestRoundTrip GetRequest.decode GetRequest.toJson (fun r j => j = r.row)
      GetRequest.spelling ∧
    RequestRoundTrip CreateRequest.decode CreateRequest.toJson (fun r j => j = r.row)
      CreateRequest.spelling ∧
    RequestRoundTrip UpdateRequest.decode UpdateRequest.toJson (fun r j => j = r.row)
      UpdateRequest.spelling ∧
    RequestRoundTrip DeleteRequest.decode DeleteRequest.toJson (fun r j => j = r.row)
      DeleteRequest.spelling := by
  refine ⟨?_, ?_, ?_, ?_, ?_, ?_, ?_⟩
  · exact requestRoundTrip_of_decode Criterion.exact_toJson Criterion.accepts_toJson
      Criterion.decode_toJson fun hview c _ hj => hj ▸ c.decode_row hview
  · exact requestRoundTrip_of_decode Scope.exact_toJson Scope.accepts_toJson
      Scope.decode_toJson fun hview s _ hj => hj ▸ s.decode_row hview
  · exact requestRoundTrip_of_decode SearchRequest.exact_toJson SearchRequest.accepts_toJson
      SearchRequest.decode_toJson fun hview _ _ hj => hj.decode hview
  · exact requestRoundTrip_of_decode GetRequest.exact_toJson GetRequest.accepts_toJson
      GetRequest.decode_toJson fun hview r _ hj => hj ▸ r.decode_row hview
  · exact requestRoundTrip_of_decode CreateRequest.exact_toJson CreateRequest.accepts_toJson
      CreateRequest.decode_toJson fun hview r _ hj => hj ▸ r.decode_row hview
  · exact requestRoundTrip_of_decode UpdateRequest.exact_toJson UpdateRequest.accepts_toJson
      UpdateRequest.decode_toJson fun hview r _ hj => hj ▸ r.decode_row hview
  · exact requestRoundTrip_of_decode DeleteRequest.exact_toJson DeleteRequest.accepts_toJson
      DeleteRequest.decode_toJson fun hview r _ hj => hj ▸ r.decode_row hview

end NoteTools
