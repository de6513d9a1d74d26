import NoteTools.Proofs.NoteText
import NoteTools.Service.Create
import NoteTools.Service.Delete
import NoteTools.Service.Get
import NoteTools.Service.Search
import NoteTools.Service.Update

/-!
# Requests in both forms

A request is written as an object, or as the array of its fields in order, in which a field without
a value is null. Both are decoded as the request, and within a search so are its criteria and its
scope, in whichever form each of them stands.

Main definitions:

* `Criterion.layout`, `Scope.layout` and the layouts of the requests;
* `Criterion.row`, `Scope.row` and the rows of the requests: the arrays of their fields;
* `SearchRequest.Row`: a search by its fields, with its criteria and its scope in either form.

Results:

* `Criterion.decode_toJson`, `Scope.decode_toJson` and so on: an object is decoded, however it is
  scanned;
* `Criterion.decode_row`, `Scope.decode_row`, `SearchRequest.Row.decode` and so on: a row is
  decoded.
-/

namespace NoteTools

open Json

/-! ## Layouts -/

/-- The layout of criteria. -/
def Criterion.layout : Layout Criterion where
  title := "SearchCriteria"
  filled c := [
    ⟨⟨_, Field.required "property" Decoder.text⟩, c.property⟩,
    ⟨⟨_, (Field.required "type" (Decoder.variant Kind.table)).orNamed "variant"⟩, c.kind⟩,
    ⟨⟨_, (Field.withDefault "op" (Decoder.optional Decoder.text) none).orNamed "operator"⟩, c.op⟩,
    ⟨⟨_, Field.withDefault "value" (Decoder.optional Decoder.text) none⟩, c.value⟩,
    ⟨⟨_, Field.withDefault "logic" (Decoder.optional Connector.decode) none⟩, c.connector⟩]
  decode := Criterion.decode

/-- The layout of scopes. -/
def Scope.layout : Layout Scope where
  title := "HierarchySpec"
  filled s := [
    ⟨⟨_, Field.required "kind" (Decoder.variant Kind.table)⟩, s.kind⟩,
    ⟨⟨_, (Field.required "referenceNoteId" Decoder.text).orNamed "noteId"⟩, s.reference⟩]
  decode := Scope.decode

/-- The layout of requests to search. -/
def SearchRequest.layout : Layout SearchRequest where
  title := "SearchRequest"
  filled r := [
    ⟨⟨_, Field.withDefault "text" (Decoder.optional Decoder.text) none⟩, r.text⟩,
    ⟨⟨_, Field.withDefault "criteria" (Decoder.list Criterion.decode) []⟩, r.criteria⟩,
    ⟨⟨_, Field.withDefault "hierarchy" (Decoder.optional Scope.decode) none⟩, r.scope⟩,
    ⟨⟨_, Field.withDefault "limit" (Decoder.optional Decoder.nat32) none⟩, r.limit⟩,
    ⟨⟨_, Field.withDefault "includeArchived" Decoder.bool false⟩, r.includeArchived⟩]
  decode := SearchRequest.decode

/-- The layout of requests to read a note. -/
def GetRequest.layout : Layout GetRequest where
  title := "GetNoteRequest"
  filled r := [
    ⟨⟨_, Field.required "noteId" Decoder.text⟩, r.noteId⟩,
    ⟨⟨_, Field.withDefault "includeContent" Decoder.bool true⟩, r.includeContent⟩]
  decode := GetRequest.decode

/-- The layout of requests to create a note. -/
def CreateRequest.layout : Layout CreateRequest where
  title := "CreateNoteRequest"
  filled r := [
    ⟨⟨_, Field.withDefault "parentNoteId" Decoder.text "root"⟩, r.parentNoteId⟩,
    ⟨⟨_, Field.required "title" Decoder.text⟩, r.title⟩,
    ⟨⟨_, Field.withDefault "type" Decoder.text "text"⟩, r.kind⟩,
    ⟨⟨_, Field.withDefault "content" Decoder.text ""⟩, r.content⟩,
    ⟨⟨_, Field.withDefault "mime" (Decoder.optional Decoder.text) none⟩, r.mime⟩]
  decode := CreateRequest.decode

/-- The layout of requests to change a note. -/
def UpdateRequest.layout : Layout UpdateRequest where
  title := "UpdateNoteRequest"
  filled r := [
    ⟨⟨_, Field.required "noteId" Decoder.text⟩, r.noteId⟩,
    ⟨⟨_, Field.withDefault "title" (Decoder.optional Decoder.text) none⟩, r.title⟩,
    ⟨⟨_, Field.withDefault "type" (Decoder.optional Decoder.text) none⟩, r.kind⟩,
    ⟨⟨_, Field.withDefault "mime" (Decoder.optional Decoder.text) none⟩, r.mime⟩,
    ⟨⟨_, Field.withDefault "content" (Decoder.optional Decoder.text) none⟩, r.content⟩,
    ⟨⟨_, Field.withDefault "createRevision" Decoder.bool true⟩, r.createRevision⟩]
  decode := UpdateRequest.decode

/-- The layout of requests to delete a note. -/
def DeleteRequest.layout : Layout DeleteRequest where
  title := "DeleteNoteRequest"
  filled r := [⟨⟨_, Field.required "noteId" Decoder.text⟩, r.noteId⟩]
  decode := DeleteRequest.decode

/-! ## Rows -/

/-- A criterion by its fields. -/
def Criterion.row (c : Criterion) : Json :=
  .arr [.str c.property, .str c.kind.name, ofText? c.op, ofText? c.value,
    ofText? (c.connector.map Connector.name)]

/-- A scope by its fields. -/
def Scope.row (s : Scope) : Json :=
  .arr [.str s.kind.name, .str s.reference]

/-- A request to read a note by its fields. -/
def GetRequest.row (r : GetRequest) : Json :=
  .arr [.str r.noteId, .bool r.includeContent]

/-- A request to create a note by its fields. -/
def CreateRequest.row (r : CreateRequest) : Json :=
  .arr [.str r.parentNoteId, .str r.title, .str r.kind, .str r.content, ofText? r.mime]

/-- A request to change a note by its fields. -/
def UpdateRequest.row (r : UpdateRequest) : Json :=
  .arr [.str r.noteId, ofText? r.title, ofText? r.kind, ofText? r.mime, ofText? r.content,
    .bool r.createRevision]

/-- A request to delete a note by its fields. -/
def DeleteRequest.row (r : DeleteRequest) : Json :=
  .arr [.str r.noteId]

/-- A criterion in either form. -/
def Criterion.Form (c : Criterion) (j : Json) : Prop :=
  j = c.toJson ∨ j = c.row

/-- A scope in either form, or null when there is none. -/
def Scope.Form? : Option Scope → Json → Prop
  | none, j => j = .null
  | some s, j => j = s.toJson ∨ j = s.row

/-- A request to search by its fields, each criterion and the scope being in either form. -/
def SearchRequest.Row (r : SearchRequest) (j : Json) : Prop :=
  ∃ (criteria : List Json) (scope : Json),
    List.Forall₂ Criterion.Form r.criteria criteria ∧ Scope.Form? r.scope scope ∧
      j = .arr [ofText? r.text, .arr criteria, scope,
        (r.limit.map fun n => nat n.toNat).getD .null, .bool r.includeArchived]

/-! ## Both forms are decoded -/

section
variable {view : Json → Scan} (hview : Faithful view)
include hview

/-- A natural number of 32 bits is decoded as itself. -/
theorem Json.Faithful.nat32 (n : UInt32) : Decoder.nat32 (view (nat n.toNat)) = .ok n := by
  have hbounds : (0 : Int) ≤ n.toNat ∧ (n.toNat : Int) ≤ 0xFFFFFFFF := by
    have hlt := n.toNat_lt
    omega
  rw [nat, hview.num, Decoder.nat32, Decoder.whole, if_pos hbounds]
  show Except.ok (UInt32.ofNat (n.toNat : Int).toNat) = _
  rw [Int.toNat_natCast, UInt32.ofNat_toNat]

theorem Json.Faithful.limit (limit : Option UInt32) :
    Decoder.optional Decoder.nat32 (view ((limit.map fun n => nat n.toNat).getD .null)) =
      .ok limit := by
  cases limit with
  | none => exact hview.optionalNull Decoder.nat32
  | some n => exact optional_of_decode (fun _ => nofun) (hview.nat32 n)

/-! ### Criteria -/

theorem Criterion.Kind.decode_name (k : Criterion.Kind) :
    Decoder.variant Criterion.Kind.table (view (.str k.name)) = .ok k :=
  hview.variant (by cases k <;> rfl)

theorem Connector.decode_name (c : Connector) :
    Decoder.optional Connector.decode (view (.str c.name)) = .ok (some c) := by
  have hname : Connector.decode (view (.str c.name)) = .ok c := hview.variant (by cases c <;> rfl)
  exact optional_of_decode (fun _ => nofun) hname

/-- A text that is put only when it is there is decoded as an option. -/
theorem Json.Faithful.writes_textMember? {f : Field (Option String)} (text : Option String)
    (hdecode : f.decode = Decoder.optional Decoder.text) (hdefault : f.default? = some none) :
    Writes view [⟨⟨_, f⟩, text⟩] (textMember? f.name text) := by
  refine Writes.textMember? (fun s hs => ?_) fun habsent => ?_
  · rw [hdecode, hs]
    exact hview.optionalText (some s)
  · rw [hdefault, habsent]

theorem Criterion.decode_toJson (c : Criterion) : Criterion.decode (view c.toJson) = .ok c := by
  apply Criterion.layout.decode_obj hview
  have hconnector : Writes view
      [⟨⟨_, Field.withDefault "logic" (Decoder.optional Connector.decode) none⟩, c.connector⟩]
      (textMember? "logic" (c.connector.map Connector.name)) := by
    refine Writes.textMember? (fun s hs => ?_) fun habsent => ?_
    · obtain ⟨connector, hc, rfl⟩ := Option.map_eq_some_iff.mp hs
      rw [hc]
      exact Connector.decode_name hview connector
    · rw [Option.map_eq_none_iff.mp habsent]
      rfl
  have hkey : Writes view [
      ⟨⟨_, Field.required "property" Decoder.text⟩, c.property⟩,
      ⟨⟨_, (Field.required "type" (Decoder.variant Kind.table)).orNamed "variant"⟩, c.kind⟩]
      [("property", .str c.property), ("type", .str c.kind.name)] :=
    .given (hview.text _) <| .given (Kind.decode_name hview _) .nil
  exact ((hkey.append (hview.writes_textMember? c.op rfl rfl)).append
    (hview.writes_textMember? c.value rfl rfl)).append hconnector

theorem Criterion.decode_row (c : Criterion) : Criterion.decode (view c.row) = .ok c := by
  have hconnector : Decoder.optional Connector.decode
      (view (ofText? (c.connector.map Connector.name))) = .ok c.connector := by
    cases c.connector with
    | none => exact hview.optionalNull Connector.decode
    | some connector => exact Connector.decode_name hview connector
  apply Criterion.layout.decode_arr hview
  exact .cons (hview.text _) <| .cons (Kind.decode_name hview _) <|
    .cons (hview.optionalText _) <| .cons (hview.optionalText _) <| .cons hconnector .nil

theorem Criterion.Form.decode {c : Criterion} {j : Json} (h : c.Form j) :
    Criterion.decode (view j) = .ok c := by
  obtain rfl | rfl := h
  · exact c.decode_toJson hview
  · exact c.decode_row hview

/-! ### Scopes -/

theorem Scope.Kind.decode_name (k : Scope.Kind) :
    Decoder.variant Scope.Kind.table (view (.str k.name)) = .ok k :=
  hview.variant (by cases k <;> rfl)

theorem Scope.decode_toJson (s : Scope) : Scope.decode (view s.toJson) = .ok s := by
  apply Scope.layout.decode_obj hview
  exact .given (Kind.decode_name hview _) <| .given (hview.text _) .nil

theorem Scope.decode_row (s : Scope) : Scope.decode (view s.row) = .ok s := by
  apply Scope.layout.decode_arr hview
  exact .cons (Kind.decode_name hview _) <| .cons (hview.text _) .nil

theorem Scope.Form?.decode {scope : Option Scope} {j : Json} (h : Scope.Form? scope j) :
    Decoder.optional Scope.decode (view j) = .ok scope := by
  cases scope with
  | none =>
    obtain rfl := h
    exact hview.optionalNull Scope.decode
  | some s =>
    refine optional_of_decode (fun _ => nofun) ?_
    obtain rfl | rfl := h
    · exact s.decode_toJson hview
    · exact s.decode_row hview

/-! ### Requests -/

theorem SearchRequest.decode_toJson (r : SearchRequest) :
    SearchRequest.decode (view r.toJson) = .ok r := by
  have hcriteria := hview.list_map r.criteria fun c _ => c.decode_toJson hview
  have hscope : Scope.Form? r.scope ((r.scope.map Scope.toJson).getD .null) := by
    cases r.scope with
    | none => rfl
    | some s => exact .inl rfl
  apply SearchRequest.layout.decode_obj hview
  exact .given (hview.optionalText _) <| .given hcriteria <| .given (hscope.decode hview) <|
    .given (hview.limit _) <| .given (hview.truth _) .nil

theorem SearchRequest.Row.decode {r : SearchRequest} {j : Json} (h : r.Row j) :
    SearchRequest.decode (view j) = .ok r := by
  obtain ⟨criteria, scope, hcriteria, hscope, rfl⟩ := h
  have hdecoded : Decoder.list Criterion.decode (view (.arr criteria)) = .ok r.criteria :=
    hview.list (hcriteria.imp fun c j hj => hj.decode hview)
  apply SearchRequest.layout.decode_arr hview
  exact .cons (hview.optionalText _) <| .cons hdecoded <| .cons (hscope.decode hview) <|
    .cons (hview.limit _) <| .cons (hview.truth _) .nil

theorem GetRequest.decode_toJson (r : GetRequest) : GetRequest.decode (view r.toJson) = .ok r := by
  apply GetRequest.layout.decode_obj hview
  exact .given (hview.text _) <| .given (hview.truth _) .nil

theorem GetRequest.decode_row (r : GetRequest) : GetRequest.decode (view r.row) = .ok r := by
  apply GetRequest.layout.decode_arr hview
  exact .cons (hview.text _) <| .cons (hview.truth _) .nil

theorem CreateRequest.decode_toJson (r : CreateRequest) :
    CreateRequest.decode (view r.toJson) = .ok r := by
  apply CreateRequest.layout.decode_obj hview
  exact .given (hview.text _) <| .given (hview.text _) <| .given (hview.text _) <|
    .given (hview.text _) <| .given (hview.optionalText _) .nil

theorem CreateRequest.decode_row (r : CreateRequest) :
    CreateRequest.decode (view r.row) = .ok r := by
  apply CreateRequest.layout.decode_arr hview
  exact .cons (hview.text _) <| .cons (hview.text _) <| .cons (hview.text _) <|
    .cons (hview.text _) <| .cons (hview.optionalText _) .nil

theorem UpdateRequest.decode_toJson (r : UpdateRequest) :
    UpdateRequest.decode (view r.toJson) = .ok r := by
  apply UpdateRequest.layout.decode_obj hview
  exact .given (hview.text _) <| .given (hview.optionalText _) <| .given (hview.optionalText _) <|
    .given (hview.optionalText _) <| .given (hview.optionalText _) <| .given (hview.truth _) .nil

theorem UpdateRequest.decode_row (r : UpdateRequest) :
    UpdateRequest.decode (view r.row) = .ok r := by
  apply UpdateRequest.layout.decode_arr hview
  exact .cons (hview.text _) <| .cons (hview.optionalText _) <| .cons (hview.optionalText _) <|
    .cons (hview.optionalText _) <| .cons (hview.optionalText _) <| .cons (hview.truth _) .nil

theorem DeleteRequest.decode_toJson (r : DeleteRequest) :
    DeleteRequest.decode (view r.toJson) = .ok r := by
  apply DeleteRequest.layout.decode_obj hview
  exact .given (hview.text _) .nil

theorem DeleteRequest.decode_row (r : DeleteRequest) :
    DeleteRequest.decode (view r.row) = .ok r := by
  apply DeleteRequest.layout.decode_arr hview
  exact .cons (hview.text _) .nil

end

end NoteTools
