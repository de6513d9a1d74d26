import Mathlib.Logic.Basic
import NoteTools.Proofs.Refusals
import NoteTools.Proofs.Script
import NoteTools.Service.Update

/-!
# A change as a play

A change to a note has a script of at most four stages: the note is fetched, it is patched, its
content is saved as a revision, and the content is replaced. The request alone decides which stages
there are. Past the checks of the request, a change plays its script.

Main definitions:

* `UpdateRequest.script`: the stages of a change;
* `UpdateRequest.Acceptable`, `UpdateRequest.typeCheck`: what is asked of a request;
* `UpdateRequest.response`: the answer to a request that has been carried out.

Results:

* `plays_changeNote`: the changes are a play of their stages;
* `run_update_of_not_acceptable`, `run_update_of_acceptable`: a change is its checks and a play.
-/

namespace NoteTools

open Http

/-! ## The script of a change -/

/-- The note that a reply holds. -/
def noteOf (reply : Reply) : Except Json.DecodeError Note :=
  Json.decodeGlyphs Note.decode (Text.Utf8.pieces reply.content)

/-- What is wrong with a reply that has to hold a note. -/
def noteFault? (reply : Reply) : Option ApiError :=
  match noteOf reply with
  | .ok _ => none
  | .error e => some (.undecodable e)

/-- The type of content of the note that a reply holds. -/
def mimeOf (reply : Reply) : Option String :=
  match noteOf reply with
  | .ok note => some note.mime
  | .error _ => none

/-- The type of content of the note that was fetched first in a play. -/
def Play.fetchedMime (p : Play) : Option String :=
  p.played.head?.bind fun x => mimeOf x.reply

namespace Stage

/-- The note of an id is fetched. -/
def fetch (id : String) : Stage where
  method := .get
  segments := ["notes", id]
  reject? := noteFault?

/-- Title, type and type of content are changed. -/
def patch (id : String) (p : NotePatch) : Stage where
  method := .patch
  segments := ["notes", id]
  body := some (.json p.toJson)
  reject? := noteFault?

/-- The content is saved as a revision. -/
def revision (id : String) : Stage where
  method := .post
  segments := ["notes", id, "revision"]

/-- The content is replaced. -/
def content (id text : String) : Stage where
  method := .put
  segments := ["notes", id, "content"]
  body := some ⟨"text/plain", text⟩

end Stage

namespace UpdateRequest

/-- The id without the blanks around it. -/
def trimmedId (r : UpdateRequest) : String :=
  Text.trim r.noteId

/-- The given fields without the blanks around them; a blank type of content is not given. -/
def fields (r : UpdateRequest) : NotePatch where
  title := r.title.map Text.trim
  kind := r.kind.map Text.trim
  mime := givenMime? r.mime

/-- The stage before anything is changed: the note is fetched when its type of content is needed. -/
def inquiry (r : UpdateRequest) : List Stage :=
  if r.kind.isSome ∧ r.fields.mime = none then [.fetch r.trimmedId] else []

/-- The stages that change something. -/
def changes (r : UpdateRequest) : List Stage :=
  (if r.title.isSome ∨ r.kind.isSome ∨ r.fields.mime.isSome then [.patch r.trimmedId r.fields]
    else [])
    ++ (if r.content.isSome ∧ r.createRevision = true then [.revision r.trimmedId] else [])
    ++ r.content.toList.map (.content r.trimmedId)

/-- All stages of a change. -/
def script (r : UpdateRequest) : List Stage :=
  r.inquiry ++ r.changes

/-- A request that may be carried out: its id is one, a given title is not blank, and something is
to be changed. -/
structure Acceptable (r : UpdateRequest) : Prop where
  id : NoteId.Valid r.trimmedId
  title : ∀ title ∈ r.title, Text.blank title = false
  given : r.title.isSome ∨ r.kind.isSome ∨ r.fields.mime.isSome ∨ r.content.isSome

/-- The check of a new type, with the given type of content, or that of the note fetched. -/
def typeCheck (r : UpdateRequest) (fetched : Option String) : Except ServiceError Unit :=
  match r.fields.kind with
  | none => .ok ()
  | some kind => checkNoteType kind (r.fields.mime.or fetched)

/-- The answer to a request that has been carried out. -/
def response (r : UpdateRequest) : UpdateResponse where
  noteId := r.trimmedId
  updatedFields :=
    (if r.title.isSome then ["title"] else []) ++ (if r.kind.isSome then ["type"] else [])
      ++ (if r.fields.mime.isSome then ["mime"] else [])
      ++ if r.content.isSome then ["content"] else []
  revisionCreated := r.content.isSome && r.createRevision

end UpdateRequest

/-! ## Stages as actions -/

/-- The note of a reply that is a success. -/
def acceptNote (reply : Reply) : Except ApiError Note :=
  (Client.accept reply).bind fun reply => (noteOf reply).mapError .undecodable

theorem noteFault?_eq : noteFault? = bodyFault? Note.decode := by
  funext reply
  unfold noteFault? bodyFault? noteOf
  cases Json.decodeGlyphs Note.decode (Text.Utf8.pieces reply.content) <;> rfl

theorem noteOf_error_iff (reply : Reply) (error : ApiError) :
    (noteOf reply).mapError .undecodable = .error error ↔ noteFault? reply = some error := by
  rw [noteFault?_eq]
  exact decoded_error_iff reply error

theorem mimeOf_of_acceptNote {reply : Reply} {note : Note} (h : acceptNote reply = .ok note) :
    mimeOf reply = some note.mime := by
  unfold acceptNote Client.accept at h
  unfold mimeOf
  cases hsuccess : reply.isSuccess with
  | false =>
    rw [hsuccess] at h
    cases h
  | true =>
    rw [hsuccess, if_pos rfl, Except.bind] at h
    cases hnote : noteOf reply with
    | error error =>
      rw [hnote] at h
      cases h
    | ok found =>
      rw [hnote] at h
      cases h
      rfl

section
variable (c : Client) (id : NoteId)

theorem carriesOut_fetch :
    CarriesOut c (.fetch id.text) (ServiceAction.call (c.getNote id.text)) acceptNote := by
  rw [Client.getNote, Client.noteId_text, pure_bind]
  exact carriesOut_call c (.fetch id.text) (isPlain_note id (by decide))
    (Client.run_decodeReply Note.decode) noteOf_error_iff

theorem carriesOut_patch (p : NotePatch) :
    CarriesOut c (.patch id.text p) (ServiceAction.call (c.patchNote id.text p)) acceptNote := by
  rw [Client.patchNote, Client.noteId_text, pure_bind]
  exact carriesOut_call c (.patch id.text p) (isPlain_note id (by decide))
    (Client.run_decodeReply Note.decode) noteOf_error_iff

theorem carriesOut_revision :
    CarriesOut c (.revision id.text) (ServiceAction.call (c.createRevision id.text))
      fun reply => (Client.accept reply).bind fun _ => .ok () := by
  rw [Client.createRevision, Client.noteId_text, pure_bind]
  exact carriesOut_call c (.revision id.text) (isPlain_note id (by decide)) (fun _ _ => rfl)
    (by simp [Stage.revision])

theorem carriesOut_content (content : String) :
    CarriesOut c (.content id.text content) (ServiceAction.call (c.putContent id.text content))
      fun reply => (Client.accept reply).bind fun _ => .ok () := by
  rw [Client.putContent, Client.noteId_text, pure_bind]
  exact carriesOut_call c (.content id.text content) (isPlain_note id (by decide)) (fun _ _ => rfl)
    (by simp [Stage.content])

end

/-! ## The parts of a change -/

theorem NotePatch.changed_eq_nil {p : NotePatch} (h : p.isEmpty = true) : p.changed = [] := by
  rw [isEmpty, Bool.and_eq_true, Bool.and_eq_true, Option.isNone_iff_eq_none,
    Option.isNone_iff_eq_none, Option.isNone_iff_eq_none] at h
  obtain ⟨⟨htitle, hkind⟩, hmime⟩ := h
  rw [changed, htitle, hkind, hmime]
  rfl

theorem fields_isEmpty_eq_false_iff (r : UpdateRequest) :
    r.fields.isEmpty = false ↔ r.title.isSome ∨ r.kind.isSome ∨ r.fields.mime.isSome := by
  have htitle : r.fields.title.isNone = r.title.isNone := Option.isNone_map
  have hkind : r.fields.kind.isNone = r.kind.isNone := Option.isNone_map
  rw [NotePatch.isEmpty, htitle, hkind]
  cases r.title <;> cases r.kind <;> cases r.fields.mime <;> simp

section
variable (s : Service) (r : UpdateRequest) (id : NoteId)

theorem plays_applyPatch :
    Plays s.client
      (if r.title.isSome ∨ r.kind.isSome ∨ r.fields.mime.isSome then [.patch id.text r.fields]
        else [])
      (s.applyPatch id r.fields) r.fields.changed := by
  unfold Service.applyPatch
  cases hempty : r.fields.isEmpty with
  | true =>
    have hnone : ¬(r.title.isSome ∨ r.kind.isSome ∨ r.fields.mime.isSome) := by
      rw [← fields_isEmpty_eq_false_iff, hempty]
      decide
    rw [if_neg hnone, NotePatch.changed_eq_nil hempty]
    exact plays_pure []
  | false =>
    rw [if_pos ((fields_isEmpty_eq_false_iff r).mp hempty)]
    exact (carriesOut_patch s.client id r.fields).bind fun _ => plays_pure r.fields.changed

theorem plays_replaceContent :
    Plays s.client
      ((if r.content.isSome ∧ r.createRevision = true then [.revision id.text] else []) ++
        r.content.toList.map (.content id.text))
      (s.replaceContent id r.content r.createRevision) (r.content.isSome && r.createRevision) := by
  unfold Service.replaceContent
  cases r.content with
  | none => exact plays_pure false
  | some content =>
    have hput (revised : Bool) := (carriesOut_content s.client id content).bind fun _ =>
      plays_pure revised
    cases r.createRevision with
    | false => exact hput false
    | true => exact (carriesOut_revision s.client id).bind fun _ => hput true

/-- The check of a new type plays the inquiry. -/
theorem run_checkNewType (hid : id.text = r.trimmedId) (t : Session) :
    Action.run (s.checkNewType id r.fields) t =
      (((play s.client t.server r.inquiry).result ()).bind fun _ =>
        r.typeCheck (play s.client t.server r.inquiry).fetchedMime,
        (play s.client t.server r.inquiry).after t) := by
  unfold Service.checkNewType UpdateRequest.inquiry UpdateRequest.typeCheck
  cases hkind : r.kind with
  | none =>
    have hfields : r.fields.kind = none := congrArg (Option.map Text.trim) hkind
    rw [hfields, if_neg (by simp), after_play_nil]
    rfl
  | some kind =>
    have hfields : r.fields.kind = some (Text.trim kind) := congrArg (Option.map Text.trim) hkind
    rw [hfields]
    cases hmime : r.fields.mime with
    | some mime =>
      rw [if_neg (by simp), after_play_nil]
      simp only [pure_bind, Action.run_ofExcept, Option.some_or, Play.result, play, Except.bind]
    | none =>
      rw [if_pos (by simp), ← hid]
      dsimp only
      rw [map_eq_pure_bind, bind_assoc, Action.run_bind]
      obtain ⟨error, herror, hrun⟩ | ⟨exchange, note, hnone, hplayed, hnote, hrun⟩ :=
        (carriesOut_fetch s.client id).cases t
      · rw [hrun, Play.result, herror]
        rfl
      · rw [hrun, Play.result, hnone, Play.fetchedMime, hplayed]
        simp only [List.head?_cons, Option.bind_some, Played.reply, mimeOf_of_acceptNote hnote,
          pure_bind, Action.run_ofExcept, Option.none_or, Except.bind]

end

/-! ## Checks before anything is sent -/

theorem checkNoteId_of_valid {text : String} (h : NoteId.Valid (Text.trim text)) :
    checkNoteId text = .ok ⟨Text.trim text, h⟩ := by
  simp only [checkNoteId, NoteId.read?, h, dif_pos]

theorem checkNoteId_of_not_valid {text : String} (h : ¬NoteId.Valid (Text.trim text)) :
    checkNoteId text = .error (.invalidRequest (.badNoteId text)) := by
  simp only [checkNoteId, NoteId.read?, h, dif_neg, not_false_eq_true]

namespace UpdateRequest

theorem patch_eq_ok {r : UpdateRequest} (h : ∀ title ∈ r.title, Text.blank title = false) :
    r.patch = .ok r.fields := by
  unfold patch fields
  cases htitle : r.title with
  | none => rfl
  | some title =>
    have hne : Text.trim title ≠ "" := by
      rw [Ne, Text.trim_eq_empty_iff, h title htitle]
      decide
    simp only [checkNonBlank, if_neg hne]
    rfl

theorem patch_eq_error {r : UpdateRequest} {title : String} (htitle : r.title = some title)
    (h : Text.blank title = true) : r.patch = .error (.invalidRequest (.blankField "title")) := by
  unfold patch
  rw [htitle]
  simp only [checkNonBlank, if_pos (Text.trim_eq_empty_iff.mpr h)]
  rfl

/-- Nothing is to be changed. -/
theorem nothing_iff (r : UpdateRequest) :
    (r.fields.isEmpty && r.content.isNone) = true ↔
      ¬(r.title.isSome ∨ r.kind.isSome ∨ r.fields.mime.isSome ∨ r.content.isSome) := by
  rw [Bool.and_eq_true, ← Bool.not_eq_false, fields_isEmpty_eq_false_iff, Option.isNone_iff_eq_none,
    ← Option.not_isSome_iff_eq_none]
  simp only [not_or, and_assoc]

end UpdateRequest

section
variable {r : UpdateRequest}

/-- A request that is not acceptable is at fault, and nothing is sent. -/
theorem run_update_of_not_acceptable (s : Service) (h : ¬r.Acceptable) (t : Session) :
    ∃ fault, Action.run (s.update r) t = (.error (.invalidRequest fault), t) := by
  unfold Service.update
  by_cases hid : NoteId.Valid r.trimmedId
  · rw [checkNoteId_of_valid hid, Action.run_bind]
    dsimp only [Action.run_ofExcept]
    by_cases htitle : ∀ title ∈ r.title, Text.blank title = false
    · rw [UpdateRequest.patch_eq_ok htitle, Action.run_bind]
      dsimp only [Action.run_ofExcept]
      have hnothing : (r.fields.isEmpty && r.content.isNone) = true := by
        rw [UpdateRequest.nothing_iff]
        exact fun hgiven => h ⟨hid, htitle, hgiven⟩
      rw [if_pos hnothing]
      exact ⟨_, rfl⟩
    · obtain ⟨title, htitle⟩ := not_forall.mp htitle
      obtain ⟨hsome, hblank⟩ := Classical.not_imp.mp htitle
      rw [UpdateRequest.patch_eq_error hsome (eq_true_of_ne_false hblank)]
      exact ⟨_, rfl⟩
  · rw [checkNoteId_of_not_valid hid]
    exact ⟨_, rfl⟩

end

/-! ## A change is the play of its script -/

theorem UpdateRequest.typeCheck_error {r : UpdateRequest} {fetched : Option String}
    {error : ServiceError} (h : r.typeCheck fetched = .error error) :
    ∃ fault, error = .invalidRequest fault := by
  unfold typeCheck checkNoteType at h
  split at h
  · cases h
  split at h
  · cases h
    exact ⟨_, rfl⟩
  split at h
  · cases h
    exact ⟨_, rfl⟩
  · cases h

theorem UpdateRequest.updatedFields_response (r : UpdateRequest) :
    r.response.updatedFields =
      r.fields.changed ++ if r.content.isSome then ["content"] else [] := by
  have htitle : r.fields.title.isSome = r.title.isSome := Option.isSome_map
  have hkind : r.fields.kind.isSome = r.kind.isSome := Option.isSome_map
  rw [response, NotePatch.changed, htitle, hkind]

/-- The changes of a request, with the names of what they change and whether a revision is saved. -/
def Service.changeNote (s : Service) (r : UpdateRequest) (id : NoteId) :
    ServiceAction (List String × Bool) := do
  let changed ← s.applyPatch id r.fields
  let revised ← s.replaceContent id r.content r.createRevision
  return (changed, revised)

/-- The report of the changes of a request, and the answer. -/
def Service.reportChanges (r : UpdateRequest) (changed : List String) (revised : Bool) :
    ServiceAction UpdateResponse := do
  let updatedFields := changed ++ if r.content.isSome then ["content"] else []
  Action.report {
    level := .info, message := "Updated note."
    fields := [("note_id", .text r.trimmedId), ("fields", .text (shownList updatedFields)),
      ("revision_created", .bool revised)] }
  return { noteId := r.trimmedId, updatedFields, revisionCreated := revised }

/-- Past the checks of the request, a change is the check of its new type, the changes, and their
report. -/
theorem run_update_eq {s : Service} {r : UpdateRequest} (h : r.Acceptable) (t : Session) :
    Action.run (s.update r) t = Action.run (do
      s.checkNewType ⟨r.trimmedId, h.id⟩ r.fields
      let x ← s.changeNote r ⟨r.trimmedId, h.id⟩
      Service.reportChanges r x.1 x.2) t := by
  have hsome : ¬(r.fields.isEmpty && r.content.isNone) = true := by
    rw [UpdateRequest.nothing_iff, not_not]
    exact h.given
  unfold Service.update
  rw [checkNoteId_of_valid h.id, Action.run_bind]
  dsimp only [Action.run_ofExcept]
  rw [UpdateRequest.patch_eq_ok h.title, Action.run_bind]
  dsimp only [Action.run_ofExcept]
  rw [if_neg hsome]
  simp only [Service.changeNote, Service.reportChanges, UpdateRequest.trimmedId, bind_assoc,
    pure_bind]

theorem run_reportChanges (r : UpdateRequest) (t : Session) :
    ∃ event, Action.run (Service.reportChanges r r.fields.changed
        (r.content.isSome && r.createRevision)) t =
      (.ok r.response, { t with events := t.events ++ [event] }) := by
  rw [Service.reportChanges, ← r.updatedFields_response, Action.run_bind]
  exact ⟨_, rfl⟩

section
variable (s : Service) {r : UpdateRequest}

theorem plays_changeNote (id : NoteId) (hid : id.text = r.trimmedId) :
    Plays s.client r.changes (s.changeNote r id)
      (r.fields.changed, r.content.isSome && r.createRevision) := by
  rw [UpdateRequest.changes, List.append_assoc, ← hid]
  refine (plays_applyPatch s r id).bind ?_
  rw [← List.append_nil (_ ++ _)]
  exact (plays_replaceContent s r id).bind (plays_pure _)

/-- What an acceptable change comes to: its new type fails the check after the inquiry, or an error
ends the play of its script, or the script is played and the change is reported. -/
theorem run_update_of_acceptable (h : r.Acceptable) (t : Session) :
    (∃ fault, (play s.client t.server r.inquiry).error? = none ∧
        r.typeCheck (play s.client t.server r.inquiry).fetchedMime =
          .error (.invalidRequest fault) ∧
        Action.run (s.update r) t =
          (.error (.invalidRequest fault), (play s.client t.server r.inquiry).after t)) ∨
      (∃ error, (play s.client t.server r.script).error? = some error ∧
        Action.run (s.update r) t =
          (.error (.ofApi error), (play s.client t.server r.script).after t)) ∨
      ∃ event, (play s.client t.server r.script).error? = none ∧
        r.typeCheck (play s.client t.server r.inquiry).fetchedMime = .ok () ∧
        Action.run (s.update r) t = (.ok r.response,
          { (play s.client t.server r.script).after t with events := t.events ++ [event] }) := by
  have hcheck := run_checkNewType s r ⟨r.trimmedId, h.id⟩ rfl t
  have hchange := plays_changeNote s (r := r) ⟨r.trimmedId, h.id⟩ rfl
  rw [run_update_eq h, Action.run_bind, hcheck, UpdateRequest.script]
  cases herror : (play s.client t.server r.inquiry).error? with
  | some error =>
    refine .inr (.inl ⟨error, ?_, ?_⟩)
    · rw [play_append_of_error herror, herror]
    · rw [Play.result, herror, play_append_of_error herror]
      rfl
  | none =>
    rw [Play.result, herror, play_append_of_none herror]
    cases htype : r.typeCheck (play s.client t.server r.inquiry).fetchedMime with
    | error error =>
      obtain ⟨fault, rfl⟩ := UpdateRequest.typeCheck_error htype
      exact .inl ⟨fault, rfl, rfl, rfl⟩
    | ok _ =>
      refine .inr ?_
      dsimp only [Except.bind]
      rw [Action.run_bind, hchange, Play.after_append, Play.result, Play.server_after]
      cases hchanges : (play s.client (play s.client t.server r.inquiry).server
          r.changes).error? with
      | some error => exact .inl ⟨error, rfl, rfl⟩
      | none =>
        obtain ⟨event, hreport⟩ := run_reportChanges r (Play.after t
          ⟨(play s.client t.server r.inquiry).played ++
              (play s.client (play s.client t.server r.inquiry).server r.changes).played, none,
            (play s.client (play s.client t.server r.inquiry).server r.changes).server⟩)
        exact .inr ⟨event, rfl, rfl, hreport⟩

end

end NoteTools
