import NoteTools.Proofs.ValueDecoding
import NoteTools.Tool.Call

/-!
# Arguments that follow a tool's schema

A tool advertises the schema of its arguments, and decodes what it is given by itself. Arguments
that do not follow the schema may be decoded all the same; arguments that follow it are decoded only
if they are usable too, and are answered as invalid otherwise. The schema promises more than the
decoder keeps:

* a flag, the place of a new note, its type and its content may be null by the schema, and null is
  not decoded: a default is for what is left out;
* a limit is any whole number from one on by the schema, and is decoded when it is written without
  a fraction and has at most 32 bits;
* a key with two spellings may be given in both by the schema, and is decoded once.

Main definitions:

* `Tool.Usable`: what a tool asks of its arguments beyond the schema;
* `Tool.Request`, `Tool.decoder`, `Tool.perform`: what a call is made of.

Results:

* `Tool.decodesWhen`: arguments that follow the schema are decoded exactly when they are usable;
* `Tool.call_of_meets`: what a call does with arguments that follow the schema.
-/

namespace NoteTools

open Json Schema

/-! ## Objects of the requests -/

section
variable {members : List (String × Json)} (hnodup : (members.map Prod.fst).Nodup)
include hnodup

theorem CreateRequest.decodes_iff :
    (∃ r, CreateRequest.decode (Scan.given (.obj members)) = .ok r) ↔
      DecodesAt Decoder.text "parentNoteId" members ∧
      (DecodesAt Decoder.text "title" members ∧ "title" ∈ members.map Prod.fst) ∧
      DecodesAt Decoder.text "type" members ∧
      DecodesAt Decoder.text "content" members ∧
      DecodesAt (Decoder.optional Decoder.text) "mime" members := by
  refine (decodes_record_iff "CreateNoteRequest" [
    ⟨_, Field.withDefault "parentNoteId" Decoder.text "root"⟩,
    ⟨_, Field.required "title" Decoder.text⟩,
    ⟨_, Field.withDefault "type" Decoder.text "text"⟩,
    ⟨_, Field.withDefault "content" Decoder.text ""⟩,
    ⟨_, Field.withDefault "mime" (Decoder.optional Decoder.text) none⟩]
    (by decide) (fun r => ?_) members).trans ?_
  · simp [exists_bind_eq_ok_iff, exists_map_eq_ok_iff]
  · simp [fits_withDefault hnodup, fits_required hnodup, -List.mem_map]

theorem DeleteRequest.decodes_iff :
    (∃ r, DeleteRequest.decode (Scan.given (.obj members)) = .ok r) ↔
      DecodesAt Decoder.text "noteId" members ∧ "noteId" ∈ members.map Prod.fst := by
  refine (decodes_record_iff "DeleteNoteRequest" [⟨_, Field.required "noteId" Decoder.text⟩]
    (by decide) (fun r => ?_) members).trans ?_
  · simp [exists_map_eq_ok_iff]
  · simp [fits_required hnodup, -List.mem_map]

theorem GetRequest.decodes_iff :
    (∃ r, GetRequest.decode (Scan.given (.obj members)) = .ok r) ↔
      (DecodesAt Decoder.text "noteId" members ∧ "noteId" ∈ members.map Prod.fst) ∧
      DecodesAt Decoder.bool "includeContent" members := by
  refine (decodes_record_iff "GetNoteRequest" [
    ⟨_, Field.required "noteId" Decoder.text⟩,
    ⟨_, Field.withDefault "includeContent" Decoder.bool true⟩]
    (by decide) (fun r => ?_) members).trans ?_
  · simp [exists_bind_eq_ok_iff, exists_map_eq_ok_iff]
  · simp [fits_withDefault hnodup, fits_required hnodup, -List.mem_map]

theorem UpdateRequest.decodes_iff :
    (∃ r, UpdateRequest.decode (Scan.given (.obj members)) = .ok r) ↔
      (DecodesAt Decoder.text "noteId" members ∧ "noteId" ∈ members.map Prod.fst) ∧
      DecodesAt (Decoder.optional Decoder.text) "title" members ∧
      DecodesAt (Decoder.optional Decoder.text) "type" members ∧
      DecodesAt (Decoder.optional Decoder.text) "mime" members ∧
      DecodesAt (Decoder.optional Decoder.text) "content" members ∧
      DecodesAt Decoder.bool "createRevision" members := by
  refine (decodes_record_iff "UpdateNoteRequest" [
    ⟨_, Field.required "noteId" Decoder.text⟩,
    ⟨_, Field.withDefault "title" (Decoder.optional Decoder.text) none⟩,
    ⟨_, Field.withDefault "type" (Decoder.optional Decoder.text) none⟩,
    ⟨_, Field.withDefault "mime" (Decoder.optional Decoder.text) none⟩,
    ⟨_, Field.withDefault "content" (Decoder.optional Decoder.text) none⟩,
    ⟨_, Field.withDefault "createRevision" Decoder.bool true⟩]
    (by decide) (fun r => ?_) members).trans ?_
  · simp [exists_bind_eq_ok_iff, exists_map_eq_ok_iff]
  · simp [fits_withDefault hnodup, fits_required hnodup, -List.mem_map]

theorem Criterion.decodes_iff :
    (∃ c, Criterion.decode (Scan.given (.obj members)) = .ok c) ↔
      (DecodesAt Decoder.text "property" members ∧ "property" ∈ members.map Prod.fst) ∧
      ((DecodesAt (Decoder.variant Criterion.Kind.table) "type" members ∧
          DecodesAt (Decoder.variant Criterion.Kind.table) "variant" members) ∧
        Once "type" "variant" (.obj members) ∧
        ("type" ∈ members.map Prod.fst ∨ "variant" ∈ members.map Prod.fst)) ∧
      ((DecodesAt (Decoder.optional Decoder.text) "op" members ∧
          DecodesAt (Decoder.optional Decoder.text) "operator" members) ∧
        Once "op" "operator" (.obj members)) ∧
      DecodesAt (Decoder.optional Decoder.text) "value" members ∧
      DecodesAt (Decoder.optional Connector.decode) "logic" members := by
  refine (decodes_record_iff "SearchCriteria" [
    ⟨_, Field.required "property" Decoder.text⟩,
    ⟨_, (Field.required "type" (Decoder.variant Criterion.Kind.table)).orNamed "variant"⟩,
    ⟨_, (Field.withDefault "op" (Decoder.optional Decoder.text) none).orNamed "operator"⟩,
    ⟨_, Field.withDefault "value" (Decoder.optional Decoder.text) none⟩,
    ⟨_, Field.withDefault "logic" (Decoder.optional Connector.decode) none⟩]
    (by decide) (fun r => ?_) members).trans ?_
  · simp [exists_bind_eq_ok_iff, exists_map_eq_ok_iff]
  · simp [fits_withDefault hnodup, fits_required hnodup, fits_required_orNamed hnodup,
      fits_withDefault_orNamed hnodup, Once, Json.keys, Json.members, -List.mem_map, -not_and]

theorem Scope.decodes_iff :
    (∃ s, Scope.decode (Scan.given (.obj members)) = .ok s) ↔
      (DecodesAt (Decoder.variant Scope.Kind.table) "kind" members ∧
        "kind" ∈ members.map Prod.fst) ∧
      (DecodesAt Decoder.text "referenceNoteId" members ∧ DecodesAt Decoder.text "noteId" members) ∧
      Once "referenceNoteId" "noteId" (.obj members) ∧
      ("referenceNoteId" ∈ members.map Prod.fst ∨ "noteId" ∈ members.map Prod.fst) := by
  refine (decodes_record_iff "HierarchySpec" [
    ⟨_, Field.required "kind" (Decoder.variant Scope.Kind.table)⟩,
    ⟨_, (Field.required "referenceNoteId" Decoder.text).orNamed "noteId"⟩]
    (by decide) (fun r => ?_) members).trans ?_
  · simp [exists_bind_eq_ok_iff, exists_map_eq_ok_iff]
  · simp [fits_required hnodup, fits_required_orNamed hnodup, Once, Json.keys, Json.members,
      -List.mem_map, -not_and]

theorem SearchRequest.decodes_iff :
    (∃ r, SearchRequest.decode (Scan.given (.obj members)) = .ok r) ↔
      DecodesAt (Decoder.optional Decoder.text) "text" members ∧
      DecodesAt (Decoder.list Criterion.decode) "criteria" members ∧
      DecodesAt (Decoder.optional Scope.decode) "hierarchy" members ∧
      DecodesAt (Decoder.optional Decoder.nat32) "limit" members ∧
      DecodesAt Decoder.bool "includeArchived" members := by
  refine (decodes_record_iff "SearchRequest" [
    ⟨_, Field.withDefault "text" (Decoder.optional Decoder.text) none⟩,
    ⟨_, Field.withDefault "criteria" (Decoder.list Criterion.decode) []⟩,
    ⟨_, Field.withDefault "hierarchy" (Decoder.optional Scope.decode) none⟩,
    ⟨_, Field.withDefault "limit" (Decoder.optional Decoder.nat32) none⟩,
    ⟨_, Field.withDefault "includeArchived" Decoder.bool false⟩]
    (by decide) (fun r => ?_) members).trans ?_
  · simp [exists_bind_eq_ok_iff, exists_map_eq_ok_iff]
  · simp [fits_withDefault hnodup]

end

/-! ## Usable arguments -/

/-- What a tool asks of its arguments beyond the schema. -/
def Tool.Usable : Tool → Json → Prop
  | .createNote, a =>
    a.At "parentNoteId" (· ≠ .null) ∧ a.At "type" (· ≠ .null) ∧ a.At "content" (· ≠ .null)
  | .deleteNote, _ => True
  | .getNote, a => a.At "includeContent" (· ≠ .null)
  | .searchNotes, a =>
    a.At "criteria" (fun criteria =>
      ∀ c ∈ criteria.items, c.Once "type" "variant" ∧ c.Once "op" "operator") ∧
    a.At "hierarchy" (Once "referenceNoteId" "noteId") ∧
    a.At "limit" (fun limit => limit = .null ∨ ∃ i : Int, limit = .num (.int i) ∧ i ≤ 0xFFFFFFFF) ∧
    a.At "includeArchived" (· ≠ .null)
  | .updateNote, a => a.At "createRevision" (· ≠ .null)

/-! ## Places -/

theorem optionalText_decodesWhen (description : Option String) (choices : List String) :
    (Schema.text description choices).nullable.DecodesWhen (Decoder.optional Decoder.text)
      fun _ => True :=
  (decodesWhen_text description choices).optional.congr fun _ => iff_true_intro (.inr trivial)

theorem nonNullText_decodesWhen :
    Schema.anyText.nullable.DecodesWhen Decoder.text (· ≠ .null) :=
  ((decodesWhen_text none []).nonNull (by simp [Decoder.text]) (by simp [Accepts])).congr
    fun _ => and_iff_left trivial

theorem flag_decodesWhen : Schema.truth.nullable.DecodesWhen Decoder.bool (· ≠ .null) :=
  (decodesWhen_truth.nonNull (by simp [Decoder.bool]) (by simp [Accepts])).congr
    fun _ => and_iff_left trivial

/-! ## Tools -/

theorem createNote_decodesWhen :
    Tool.createNote.schema.DecodesWhen CreateRequest.decode Tool.createNote.Usable := by
  intro j hdistinct haccepts
  obtain ⟨members, rfl, -, hrequired, -, hfields⟩ := accepts_record_iff.mp haccepts
  simp only [AcceptsFields] at hfields
  obtain ⟨hparent, htitle, hkind, hcontent, hmime, -⟩ := hfields
  rw [CreateRequest.decodes_iff hdistinct.1,
    nonNullText_decodesWhen.decodesAt_iff hdistinct hparent,
    (decodesWhen_text none []).decodesAt_iff hdistinct htitle,
    nonNullText_decodesWhen.decodesAt_iff hdistinct hkind,
    nonNullText_decodesWhen.decodesAt_iff hdistinct hcontent,
    (optionalText_decodesWhen none []).decodesAt_iff hdistinct hmime]
  simp only [at_true, true_and, and_true, hrequired "title" List.mem_cons_self, Tool.Usable]

theorem deleteNote_decodesWhen :
    Tool.deleteNote.schema.DecodesWhen DeleteRequest.decode Tool.deleteNote.Usable := by
  intro j hdistinct haccepts
  obtain ⟨members, rfl, -, hrequired, -, hfields⟩ := accepts_record_iff.mp haccepts
  simp only [AcceptsFields] at hfields
  obtain ⟨hnoteId, -⟩ := hfields
  rw [DeleteRequest.decodes_iff hdistinct.1,
    (decodesWhen_text none []).decodesAt_iff hdistinct hnoteId]
  simp only [at_true, true_and, hrequired "noteId" List.mem_cons_self, Tool.Usable]

theorem getNote_decodesWhen :
    Tool.getNote.schema.DecodesWhen GetRequest.decode Tool.getNote.Usable := by
  intro j hdistinct haccepts
  obtain ⟨members, rfl, -, hrequired, -, hfields⟩ := accepts_record_iff.mp haccepts
  simp only [AcceptsFields] at hfields
  obtain ⟨hnoteId, hcontent, -⟩ := hfields
  rw [GetRequest.decodes_iff hdistinct.1,
    (decodesWhen_text none []).decodesAt_iff hdistinct hnoteId,
    flag_decodesWhen.decodesAt_iff hdistinct hcontent]
  simp only [at_true, true_and, hrequired "noteId" List.mem_cons_self, Tool.Usable]

theorem updateNote_decodesWhen :
    Tool.updateNote.schema.DecodesWhen UpdateRequest.decode Tool.updateNote.Usable := by
  intro j hdistinct haccepts
  obtain ⟨members, rfl, -, hrequired, -, hfields⟩ := accepts_record_iff.mp haccepts
  simp only [AcceptsFields] at hfields
  obtain ⟨hnoteId, htitle, hkind, hmime, hcontent, hrevision, -⟩ := hfields
  rw [UpdateRequest.decodes_iff hdistinct.1,
    (decodesWhen_text none []).decodesAt_iff hdistinct hnoteId,
    (optionalText_decodesWhen none []).decodesAt_iff hdistinct htitle,
    (optionalText_decodesWhen none []).decodesAt_iff hdistinct hkind,
    (optionalText_decodesWhen none []).decodesAt_iff hdistinct hmime,
    (optionalText_decodesWhen none []).decodesAt_iff hdistinct hcontent,
    flag_decodesWhen.decodesAt_iff hdistinct hrevision]
  simp only [at_true, true_and, hrequired "noteId" List.mem_cons_self, Tool.Usable]

theorem criterion_decodesWhen :
    Tool.criterionSchema.DecodesWhen Criterion.decode fun c =>
      c.Once "type" "variant" ∧ c.Once "op" "operator" := by
  intro j hdistinct haccepts
  obtain ⟨members, rfl, -, hrequired, halternatives, hfields⟩ := accepts_record_iff.mp haccepts
  simp only [AcceptsFields] at hfields
  obtain ⟨hproperty, hkind, hkind', hop, hop', hvalue, hlogic, -⟩ := hfields
  have hkinds : (Schema.text none ["label", "relation", "noteProperty", "note_property",
      "fulltext"]).DecodesWhen (Decoder.variant Criterion.Kind.table) fun _ => True :=
    decodesWhen_choices (by decide) (by decide)
  have hlogics : (Schema.text none ["AND", "OR", "and", "or"]).nullable.DecodesWhen
      (Decoder.optional Connector.decode) fun _ => True :=
    (decodesWhen_choices (by decide) (by decide)).optional.congr fun _ =>
      iff_true_intro (.inr trivial)
  have hspelled : "type" ∈ members.map Prod.fst ∨ "variant" ∈ members.map Prod.fst := by
    simpa [-List.mem_map] using halternatives
  rw [Criterion.decodes_iff hdistinct.1,
    (decodesWhen_text _ []).decodesAt_iff hdistinct hproperty,
    hkinds.decodesAt_iff hdistinct hkind, hkinds.decodesAt_iff hdistinct hkind',
    (optionalText_decodesWhen none _).decodesAt_iff hdistinct hop,
    (optionalText_decodesWhen none _).decodesAt_iff hdistinct hop',
    (optionalText_decodesWhen none []).decodesAt_iff hdistinct hvalue,
    hlogics.decodesAt_iff hdistinct hlogic]
  simp only [at_true, true_and, and_true, hrequired "property" List.mem_cons_self, hspelled]

theorem scope_decodesWhen :
    Tool.scopeSchema.DecodesWhen Scope.decode (Once "referenceNoteId" "noteId") := by
  intro j hdistinct haccepts
  obtain ⟨members, rfl, -, hrequired, halternatives, hfields⟩ := accepts_record_iff.mp haccepts
  simp only [AcceptsFields] at hfields
  obtain ⟨hkind, hreference, hnoteId, -⟩ := hfields
  have hkinds : (Schema.text none ["children", "descendants"]).DecodesWhen
      (Decoder.variant Scope.Kind.table) fun _ => True :=
    decodesWhen_choices (by decide) (by decide)
  have hspelled :
      "referenceNoteId" ∈ members.map Prod.fst ∨ "noteId" ∈ members.map Prod.fst := by
    simpa [-List.mem_map] using halternatives
  rw [Scope.decodes_iff hdistinct.1, hkinds.decodesAt_iff hdistinct hkind,
    (decodesWhen_text none []).decodesAt_iff hdistinct hreference,
    (decodesWhen_text none []).decodesAt_iff hdistinct hnoteId]
  simp only [at_true, true_and, and_true, hrequired "kind" List.mem_cons_self, hspelled]

theorem searchNotes_decodesWhen :
    Tool.searchNotes.schema.DecodesWhen SearchRequest.decode Tool.searchNotes.Usable := by
  intro j hdistinct haccepts
  obtain ⟨members, rfl, -, -, -, hfields⟩ := accepts_record_iff.mp haccepts
  simp only [AcceptsFields] at hfields
  obtain ⟨htext, hcriteria, hscope, hlimit, harchived, -⟩ := hfields
  have hscopes : Tool.scopeSchema.nullable.DecodesWhen (Decoder.optional Scope.decode)
      (Once "referenceNoteId" "noteId") := by
    refine scope_decodesWhen.optional.congr fun scope => or_iff_right_of_imp ?_
    rintro rfl ⟨hthere, -⟩
    exact absurd hthere List.not_mem_nil
  have hlimits := (decodesWhen_whole (by decide : (0 : Int) ≤ 1)).optional
  rw [SearchRequest.decodes_iff hdistinct.1,
    (optionalText_decodesWhen _ []).decodesAt_iff hdistinct htext,
    criterion_decodesWhen.list.decodesAt_iff hdistinct hcriteria,
    hscopes.decodesAt_iff hdistinct hscope, hlimits.decodesAt_iff hdistinct hlimit,
    flag_decodesWhen.decodesAt_iff hdistinct harchived]
  simp only [at_true, true_and, Tool.Usable]

/-! ## Calls -/

namespace Tool

/-- The requests that a tool decodes. -/
def Request : Tool → Type
  | .createNote => CreateRequest
  | .deleteNote => DeleteRequest
  | .getNote => GetRequest
  | .searchNotes => SearchRequest
  | .updateNote => UpdateRequest

/-- The decoder of a tool's arguments. -/
def decoder : (t : Tool) → Decoder t.Request
  | .createNote => CreateRequest.decode
  | .deleteNote => DeleteRequest.decode
  | .getNote => GetRequest.decode
  | .searchNotes => SearchRequest.decode
  | .updateNote => UpdateRequest.decode

/-- What a tool does with a request. -/
def perform (s : Service) : (t : Tool) → t.Request → ServiceAction Json
  | .createNote => fun r => PlacedNote.toJson <$> s.create r
  | .deleteNote => fun r => DeleteResponse.toJson <$> s.delete r
  | .getNote => fun r => NoteView.toJson <$> s.get r
  | .searchNotes => fun r => SearchResponse.toJson <$> s.search r
  | .updateNote => fun r => UpdateResponse.toJson <$> s.update r

theorem call_eq (s : Service) (t : Tool) (arguments : Json) :
    t.call s arguments = decodeAndRespond t.decoder (t.perform s) arguments := by
  cases t <;> rfl

/-- **Arguments that follow the schema** are decoded exactly when they are usable. -/
theorem decodesWhen (t : Tool) : t.schema.DecodesWhen t.decoder t.Usable := by
  cases t with
  | createNote => exact createNote_decodesWhen
  | deleteNote => exact deleteNote_decodesWhen
  | getNote => exact getNote_decodesWhen
  | searchNotes => exact searchNotes_decodesWhen
  | updateNote => exact updateNote_decodesWhen

/-- **A call whose arguments follow the schema** has the service carry out the request, whatever the
service is, when the arguments are usable, and is answered as invalid otherwise. -/
theorem call_of_meets (t : Tool) (arguments : Json) (h : t.schema.toJson.Meets (sorted arguments)) :
    (t.Usable (sorted arguments) → ∃ r, decodeValue t.decoder arguments = .ok r ∧
      ∀ s, t.call s arguments = respond (t.perform s r)) ∧
    (¬t.Usable (sorted arguments) → ∃ e, decodeValue t.decoder arguments = .error e ∧
      ∀ s, t.call s arguments = throw (.invalidParams ("Invalid arguments: " ++ e.message))) := by
  have haccepts := (Schema.meets_advertised t.schema false (sorted arguments)).mp h
  have hdecodes : (∃ r, decodeValue t.decoder arguments = .ok r) ↔ t.Usable (sorted arguments) :=
    t.decodesWhen (sorted arguments) (distinct_sorted arguments) haccepts
  refine ⟨fun husable => ?_, fun hnot => ?_⟩
  · obtain ⟨r, hr⟩ := hdecodes.mpr husable
    refine ⟨r, hr, fun s => ?_⟩
    rw [call_eq, decodeAndRespond, hr]
  · cases hresult : decodeValue t.decoder arguments with
    | ok r => exact absurd (hdecodes.mp ⟨r, hresult⟩) hnot
    | error e =>
      refine ⟨e, rfl, fun s => ?_⟩
      rw [call_eq, decodeAndRespond, hresult]

/-- A search for the notes with a label, five at most. -/
def shelfSearch : Json :=
  .obj [("criteria", .arr [.obj [("op", .str "exists"), ("property", .str "shelf"),
    ("type", .str "label")]]), ("limit", .int 5)]

theorem call_of_meets_shelf :
    Tool.searchNotes.schema.toJson.Meets (sorted shelfSearch) ∧
      Tool.searchNotes.Usable (sorted shelfSearch) ∧
      ∃ r, decodeValue Tool.searchNotes.decoder shelfSearch = .ok r ∧
        ∀ s, Tool.searchNotes.call s shelfSearch = respond (Tool.searchNotes.perform s r) := by
  have hsorted : sorted shelfSearch = shelfSearch := by rfl
  have hmeets : Tool.searchNotes.schema.toJson.Meets (sorted shelfSearch) := by
    rw [hsorted]
    refine (Schema.meets_advertised _ false _).mpr (accepts_record_iff.mpr ⟨_, rfl, ?_⟩)
    simp [AcceptsFields, criterionSchema, Accepts, Schema.anyText, Json.int, Number.IsWhole,
      Number.AtLeast]
  have husable : Tool.searchNotes.Usable (sorted shelfSearch) := by
    rw [hsorted]
    simp [Usable, At, Once, shelfSearch, Json.members, Json.items, Json.keys, Json.int]
  exact ⟨hmeets, husable, (call_of_meets .searchNotes shelfSearch hmeets).1 husable⟩

/-- A flag that is null follows the schema, and is not decoded. -/
theorem searchNotes_null_flag :
    Tool.searchNotes.schema.toJson.Meets (sorted (.obj [("includeArchived", .null)])) ∧
      ∀ s, Tool.searchNotes.call s (.obj [("includeArchived", .null)]) =
        throw (.invalidParams "Invalid arguments: invalid type: null, expected a boolean") := by
  constructor
  · refine (Schema.meets_advertised _ false _).mpr (accepts_record_iff.mpr ⟨_, rfl, ?_⟩)
    simp [AcceptsFields, Accepts, sortMembers, sortedMembers, sorted, putMember]
  · exact fun s => rfl

end Tool

end NoteTools
