import NoteTools.Proofs.ConsistentNotes
import NoteTools.Proofs.SearchRun

/-!
# Creating a note from end to end

A request to create a note is checked field by field, and the first check that fails is the fault of
the request; nothing is sent then. A request that passes its checks is sent once, as an object with
the trimmed fields and the content as it stands, and that object is what the body is read back as.

Main definitions:

* `FirstFault`: the fault of the first demand that is not met;
* `CreateRequest.demands`, `CreateRequest.members`: what is asked of a request, and what is sent;
* `CreateSent`, `CreateRun`: what a creation that is sent does, and what any creation does.

Results:

* `FirstFault.unique`, `exists_firstFault_iff`: there is one first fault, unless all demands are
  met;
* `CreateRequest.newNote_of_demands`, `newNote_of_firstFault`: the checks follow the demands;
* `Service.create_run`: every creation.
-/

namespace NoteTools

open Http Text

/-! ## Demands -/

/-- The fault of the first demand that is not met. -/
inductive FirstFault : List (Prop × RequestFault) → RequestFault → Prop
  | here {demand : Prop} {fault : RequestFault} {demands : List (Prop × RequestFault)} :
    ¬demand → FirstFault ((demand, fault) :: demands) fault
  | behind {demand : Prop} {fault fault' : RequestFault} {demands : List (Prop × RequestFault)} :
    demand → FirstFault demands fault' → FirstFault ((demand, fault) :: demands) fault'

section
variable {demands : List (Prop × RequestFault)}

/-- There is one first fault at most. -/
theorem FirstFault.unique {fault fault' : RequestFault} (h : FirstFault demands fault)
    (h' : FirstFault demands fault') : fault = fault' := by
  induction h with
  | here hnot =>
    cases h' with
    | here => rfl
    | behind hmet => exact absurd hmet hnot
  | behind hmet _ ih =>
    cases h' with
    | here hnot => exact absurd hmet hnot
    | behind _ h' => exact ih h'

/-- There is a first fault unless all demands are met. -/
theorem exists_firstFault_iff :
    (∃ fault, FirstFault demands fault) ↔ ¬∀ demand ∈ demands, demand.1 := by
  induction demands with
  | nil => exact iff_of_false (by rintro ⟨_, ⟨⟩⟩) (by simp)
  | cons first demands ih =>
    obtain ⟨demand, fault⟩ := first
    rw [List.forall_mem_cons]
    by_cases hmet : demand
    · rw [and_iff_right hmet, ← ih]
      constructor
      · rintro ⟨fault', h⟩
        cases h with
        | here hnot => exact absurd hmet hnot
        | behind _ h => exact ⟨fault', h⟩
      · rintro ⟨fault', h⟩
        exact ⟨fault', .behind hmet h⟩
    · exact iff_of_true ⟨fault, .here hmet⟩ fun h => hmet h.1

end

/-! ## Specification -/

namespace CreateRequest

variable (r : CreateRequest)

/-- What is asked of a request, in the order in which it is checked, with the fault of a request
that does not meet it. -/
def demands : List (Prop × RequestFault) := [
  (blank r.title = false, .blankField "title"),
  (NoteId.Valid (trim r.parentNoteId), .badNoteId r.parentNoteId),
  (trim r.kind ∈ noteTypes, .unknownType (trim r.kind)),
  (trim r.kind ∈ ["code", "file", "image"] → ∃ mime ∈ r.mime, blank mime = false,
    .mimeRequired (trim r.kind))]

/-- The members of the object that is sent, in order. -/
def members : List (String × Json) :=
  [("parentNoteId", .str (trim r.parentNoteId)), ("title", .str (trim r.title)),
    ("type", .str (trim r.kind)), ("content", .str r.content)] ++
    match r.mime with
    | some mime => if blank mime then [] else [("mime", .str (trim mime))]
    | none => []

end CreateRequest

/-- The created note of a reply. -/
def createdNote (reply : Reply) : Except ApiError PlacedNote :=
  (Client.accept reply).bind fun reply =>
    (Json.decodeGlyphs PlacedNote.decode (Utf8.pieces reply.content)).mapError .undecodable

/-- A creation that was sent, and how it ends after the reply. -/
structure CreateSent (c : Client) (r : CreateRequest) (reply : Reply) (request : Request)
    (outcome : Except ServiceError PlacedNote) : Prop where
  /-- The request creates a note. -/
  creates : c.Creates request
  /-- It is a request for the place where notes are created. -/
  asks : c.HasPlainBase → c.Asks .newNote request
  method : request.method = .post
  contentType : request.contentType = some "application/json"
  /-- The body is read as the object with the members of the request. -/
  body : Json.parse request.body = .ok (.obj r.members)
  /-- The outcome is what the reply says. -/
  ends : outcome = (createdNote reply).mapError .ofApi

/-- What a creation does in a session whose server gives a reply. -/
structure CreateRun (c : Client) (r : CreateRequest) (t : Session) (reply : Reply)
    (outcome : Except ServiceError PlacedNote) (requests : List Request) : Prop where
  /-- A request is sent exactly when all demands are met. -/
  sends_iff : requests ≠ t.requests ↔ ∀ demand ∈ r.demands, demand.1
  /-- Then it is the only one. -/
  sent : (∀ demand ∈ r.demands, demand.1) →
    ∃ request, requests = t.requests ++ [request] ∧ CreateSent c r reply request outcome
  /-- Otherwise the first fault is the error. -/
  stopped : (¬∀ demand ∈ r.demands, demand.1) →
    ∃ fault, FirstFault r.demands fault ∧ outcome = .error (.invalidRequest fault)
  /-- A request is at fault for no other reason. -/
  fault_iff : ∀ fault, outcome = .error (.invalidRequest fault) ↔ FirstFault r.demands fault

/-! ## Checks -/

theorem checkNonBlank_of_not_blank {value : String} (h : blank value = false) (field : String) :
    checkNonBlank value field = .ok (trim value) := by
  have hne : trim value ≠ "" := by
    rw [Ne, trim_eq_empty_iff, h]
    decide
  exact if_neg hne

theorem checkNonBlank_of_blank {value : String} (h : ¬blank value = false) (field : String) :
    checkNonBlank value field = .error (.invalidRequest (.blankField field)) :=
  if_pos (trim_eq_empty_iff.mpr (eq_true_of_ne_false h))

theorem givenMime?_some (mime : String) :
    givenMime? (some mime) = if blank mime then none else some (trim mime) := by
  have hempty : trim mime = "" ↔ blank mime = true := trim_eq_empty_iff
  rw [givenMime?, Option.map_some, Option.filter_some]
  simp only [ne_eq, hempty]
  cases blank mime <;> rfl

/-- A given type of content is not blank. -/
theorem givenMime?_all_blank_iff {mime : Option String} :
    (givenMime? mime).all blank = true ↔ ¬∃ m ∈ mime, blank m = false := by
  cases mime with
  | none => exact iff_of_true rfl (by simp)
  | some m =>
    have htrim : blank (trim m) = blank m := by
      rw [Bool.eq_iff_iff, ← trim_eq_empty_iff, trim_trim, trim_eq_empty_iff]
    rw [givenMime?_some]
    cases hblank : blank m <;> simp [htrim, hblank]

section
variable {kind : String} {mime : Option String}

theorem checkNoteType_of_unknown (h : kind ∉ noteTypes) :
    checkNoteType kind mime = .error (.invalidRequest (.unknownType kind)) :=
  if_pos h

theorem checkNoteType_of_known (h : kind ∈ noteTypes) :
    checkNoteType kind mime = if kind ∈ mimeRequiredTypes ∧ mime.all blank then
      .error (.invalidRequest (.mimeRequired kind)) else .ok () :=
  if_neg (not_not.mpr h)

end

namespace CreateRequest

variable {r : CreateRequest}

/-- What is sent for a request that meets the demands. -/
def cleaned (r : CreateRequest) : NewNote where
  parentNoteId := trim r.parentNoteId
  title := trim r.title
  kind := trim r.kind
  content := r.content
  mime := givenMime? r.mime

theorem toJson_cleaned (r : CreateRequest) : r.cleaned.toJson = .obj r.members := by
  rw [NewNote.toJson, members]
  congr 2
  show Json.textMember? "mime" (givenMime? r.mime) = _
  cases r.mime with
  | none => rfl
  | some mime =>
    rw [givenMime?_some]
    dsimp only
    cases blank mime <;> rfl

/-- A title and an id that pass their checks leave the check of the type. -/
theorem newNote_of_named (htitle : blank r.title = false)
    (hparent : NoteId.Valid (trim r.parentNoteId)) :
    r.newNote = (checkNoteType (trim r.kind) (givenMime? r.mime)).map fun _ => r.cleaned := by
  rw [newNote, checkNonBlank_of_not_blank htitle, checkNoteId_of_valid hparent]
  cases hkind : checkNoteType (trim r.kind) (givenMime? r.mime) with
  | error e => simp only [bind, Except.bind, hkind, Except.map]
  | ok _ => simp only [bind, Except.bind, hkind, Except.map]; rfl

/-- A request that meets the demands passes its checks. -/
theorem newNote_of_demands (h : ∀ demand ∈ r.demands, demand.1) : r.newNote = .ok r.cleaned := by
  simp only [demands, List.forall_mem_cons] at h
  obtain ⟨htitle, hparent, hkind, hmime, -⟩ := h
  have hgiven : ¬(trim r.kind ∈ mimeRequiredTypes ∧ (givenMime? r.mime).all blank = true) := by
    rintro ⟨hrequired, hblank⟩
    exact givenMime?_all_blank_iff.mp hblank (hmime hrequired)
  rw [newNote_of_named htitle hparent, checkNoteType_of_known hkind, if_neg hgiven]
  rfl

/-- A request fails its checks with its first fault. -/
theorem newNote_of_firstFault {fault : RequestFault} (h : FirstFault r.demands fault) :
    r.newNote = .error (.invalidRequest fault) := by
  rw [demands] at h
  cases h with
  | here htitle =>
    rw [newNote, checkNonBlank_of_blank htitle]
    rfl
  | behind htitle h =>
    cases h with
    | here hparent =>
      rw [newNote, checkNonBlank_of_not_blank htitle, checkNoteId_of_not_valid hparent]
      rfl
    | behind hparent h =>
      rw [newNote_of_named htitle hparent]
      cases h with
      | here hkind =>
        rw [checkNoteType_of_unknown hkind]
        rfl
      | behind hkind h =>
        cases h with
        | here hmime =>
          obtain ⟨hrequired, hblank⟩ := Classical.not_imp.mp hmime
          rw [checkNoteType_of_known hkind, if_pos ⟨hrequired, givenMime?_all_blank_iff.mpr hblank⟩]
          rfl
        | behind _ h => cases h

end CreateRequest

/-! ## Running a creation -/

/-- The call that creates a note. -/
def NewNote.call (n : NewNote) : Call where
  method := .post
  segments := ["create-note"]
  body := some (.json n.toJson)

theorem Client.run_createNote (c : Client) (n : NewNote) (t : Session) :
    Action.run (ServiceAction.call (c.createNote n)) t =
      match n.call.exchange c t.server with
      | .error error => (.error (.ofApi error), t)
      | .ok (x, server) => ((createdNote x.reply).mapError .ofApi, t.after server [x]) :=
  c.run_call n.call isPlain_newNote (run_decodeReply PlacedNote.decode) t

/-- A reply is never the fault of the request. -/
theorem createdNote_ne_invalidRequest (reply : Reply) (fault : RequestFault) :
    (createdNote reply).mapError ServiceError.ofApi ≠ .error (.invalidRequest fault) := by
  cases h : createdNote reply with
  | ok n => rintro ⟨⟩
  | error error =>
    intro heq
    exact (failsOn_of_decoded h).ne_invalidRequest fault (Except.error.inj heq)

section
variable {s : Service} {r : CreateRequest} {t : Session}

theorem Service.run_create_of_error {e : ServiceError} (h : r.newNote = .error e) (t : Session) :
    Action.run (s.create r) t = (.error e, t) := by
  rw [create, h]
  rfl

/-- A request that passes its checks is sent once, and ends with what the reply says. -/
theorem Service.run_create_of_ok {n : NewNote} (h : r.newNote = .ok n) {e : Endpoint}
    {reply : Reply} {next : Server} (he : s.client.ready? = some e)
    (hanswer : t.server.answer = some (reply, next)) :
    (Action.run (s.create r) t).1 = (createdNote reply).mapError ServiceError.ofApi ∧
      (Action.run (s.create r) t).2.requests = t.requests ++ [n.call.request s.client e] := by
  rw [create, h, Action.run_bind, Action.run_ofExcept]
  dsimp only
  rw [Action.run_bind, Client.run_createNote, Call.exchange_of_answer he hanswer]
  dsimp only
  cases createdNote reply <;> exact ⟨rfl, rfl⟩

theorem createSent_of_demands {e : Endpoint} {reply : Reply} {next : Server}
    (h : ∀ demand ∈ r.demands, demand.1) (he : s.client.ready? = some e)
    (hanswer : t.server.answer = some (reply, next)) :
    ∃ request, (Action.run (s.create r) t).2.requests = t.requests ++ [request] ∧
      CreateSent s.client r reply request (Action.run (s.create r) t).1 := by
  obtain ⟨houtcome, hrequests⟩ :=
    Service.run_create_of_ok (CreateRequest.newNote_of_demands h) he hanswer
  have hcreates : s.client.Creates (r.cleaned.call.request s.client e) :=
    ⟨.json r.cleaned.toJson, Option.map_eq_some_iff.mpr ⟨e, he, rfl⟩⟩
  refine ⟨_, hrequests, hcreates, fun hbase => ?_, rfl, rfl, ?_, houtcome⟩
  · exact Client.asks_of_call hbase he (List.mem_singleton_self _) rfl rfl
  · show Json.parse r.cleaned.toJson.text = _
    rw [← r.toJson_cleaned]
    exact Json.parse_text (Json.exactMembers_append ⟨trivial, trivial, trivial, trivial, trivial⟩
      (Json.exactMembers_textMember? _ _))

/-- **Every creation.** The title, the id of the note above, the type and the type of content are
checked in this order and before anything is sent. Otherwise one request is sent, whose body is read
as the object of the trimmed fields and the content as it stands. -/
theorem Service.create_run (s : Service) (r : CreateRequest) (t : Session) {e : Endpoint}
    {reply : Reply} {next : Server} (htoken : isHeaderText s.client.token = true)
    (hendpoint : s.client.endpoint? = some e) (hanswer : t.server.answer = some (reply, next)) :
    CreateRun s.client r t reply (Action.run (s.create r) t).1
      (Action.run (s.create r) t).2.requests := by
  have he : s.client.ready? = some e := by rw [Client.ready?, if_pos htoken, hendpoint]
  by_cases h : ∀ demand ∈ r.demands, demand.1
  · obtain ⟨request, hrequests, hsent⟩ := createSent_of_demands h he hanswer
    refine ⟨iff_of_true ?_ h, fun _ => ⟨request, hrequests, hsent⟩, absurd h, fun fault => ?_⟩
    · rw [hrequests]
      simp
    · rw [hsent.ends]
      exact iff_of_false (createdNote_ne_invalidRequest reply fault) fun hfault =>
        exists_firstFault_iff.mp ⟨fault, hfault⟩ h
  · obtain ⟨fault, hfault⟩ := exists_firstFault_iff.mpr h
    rw [run_create_of_error (CreateRequest.newNote_of_firstFault hfault)]
    refine ⟨iff_of_false (absurd rfl) h, fun hmet => absurd hmet h, fun _ => ⟨fault, hfault, rfl⟩,
      fun fault' => ⟨?_, ?_⟩⟩
    · rintro ⟨⟩
      exact hfault
    · intro hfault'
      rw [hfault.unique hfault']

end

/-- A request with blanks around its fields, and characters that are escaped. -/
def logbookCreation : CreateRequest where
  parentNoteId := " tide_log "
  title := "\t\"Low\" water "
  kind := " code "
  content := " a\\b\n\u0001\x7f° "
  mime := some " text/x-log\n"

/-- A reply with the note that it has created. -/
def logbookReply : Reply :=
  ⟨201, none, Text.Utf8.encode "\x7b\"note\":\x7b\x7d,\"branch\":\x7b\x7d\x7d"⟩

theorem Service.create_run_logbook :
    (∀ demand ∈ logbookCreation.demands, demand.1) ∧
      (Json.obj logbookCreation.members).text =
        "\x7b\"parentNoteId\":\"tide_log\",\"title\":\"\\\"Low\\\" water\",\"type\":\"code\"," ++
          "\"content\":\" a\\\\b\\n\\u0001\x7f° \",\"mime\":\"text/x-log\"\x7d" ∧
      CreateRun tideService.client logbookCreation (.start ⟨[logbookReply], none⟩) logbookReply
        (Action.run (tideService.create logbookCreation) (.start ⟨[logbookReply], none⟩)).1
        (Action.run (tideService.create logbookCreation) (.start ⟨[logbookReply], none⟩)).2.requests
      := by
  have htoken : isHeaderText tideService.client.token = true := by decide
  have hendpoint : tideService.client.endpoint? = some tideEndpoint := by decide +kernel
  have hanswer : (⟨[logbookReply], none⟩ : Server).answer = some (logbookReply, ⟨[], none⟩) := rfl
  refine ⟨?_, by decide +kernel, ?_⟩
  · simp only [CreateRequest.demands, List.forall_mem_cons]
    exact ⟨by decide, by decide, by decide, fun _ => ⟨_, rfl, by decide⟩, by simp⟩
  · exact tideService.create_run logbookCreation (.start ⟨[logbookReply], none⟩) htoken hendpoint
      hanswer

end NoteTools
