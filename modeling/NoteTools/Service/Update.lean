import NoteTools.Service.Basic

/-!
# Changing a note

Title, type and type of content are changed together; the content is replaced after that, and its
old state is saved as a revision first unless the request says otherwise. A new type is checked
against the type of content of the request, or of the note when the request has none.

Main definitions:

* `UpdateRequest`, its check `UpdateRequest.patch`, `UpdateResponse`;
* `Service.update`.
-/

namespace NoteTools

open Json

/-- A request to change a note. -/
structure UpdateRequest where
  /-- The id of the note. -/
  noteId : String
  /-- The new title. -/
  title : Option String := none
  /-- The new type of the note. -/
  kind : Option String := none
  /-- The new type of the content. -/
  mime : Option String := none
  /-- The new content. -/
  content : Option String := none
  /-- The old content is saved as a revision. -/
  createRevision : Bool := true
  deriving DecidableEq, Repr

/-- The answer to a change. -/
structure UpdateResponse where
  /-- The id of the note. -/
  noteId : String
  /-- What was changed. -/
  updatedFields : List String
  /-- A revision was saved. -/
  revisionCreated : Bool
  deriving DecidableEq, Repr

/-- Decodes a request to change a note. -/
def UpdateRequest.decode : Decoder UpdateRequest := fun s => do
  let noteId := Field.required "noteId" Decoder.text
  let title := Field.withDefault "title" (Decoder.optional Decoder.text) none
  let kind := Field.withDefault "type" (Decoder.optional Decoder.text) none
  let mime := Field.withDefault "mime" (Decoder.optional Decoder.text) none
  let content := Field.withDefault "content" (Decoder.optional Decoder.text) none
  let createRevision := Field.withDefault "createRevision" Decoder.bool true
  let r ← openRecord "UpdateNoteRequest"
    [noteId.slot, title.slot, kind.slot, mime.slot, content.slot, createRevision.slot] s
  return {
    noteId := ← r.get noteId
    title := ← r.get title
    kind := ← r.get kind
    mime := ← r.get mime
    content := ← r.get content
    createRevision := ← r.get createRevision }

/-- The object of a request to change a note. -/
def UpdateRequest.toJson (r : UpdateRequest) : Json :=
  .obj [("noteId", .str r.noteId), ("title", ofText? r.title), ("type", ofText? r.kind),
    ("mime", ofText? r.mime), ("content", ofText? r.content),
    ("createRevision", .bool r.createRevision)]

/-- The object of an answer to a change. -/
def UpdateResponse.toJson (r : UpdateResponse) : Json :=
  .obj [("noteId", .str r.noteId), ("updatedFields", .strs r.updatedFields),
    ("revisionCreated", .bool r.revisionCreated)]

/-- The patch of a request, if its title is not blank. -/
def UpdateRequest.patch (r : UpdateRequest) : Except ServiceError NotePatch := do
  let title ← match r.title with
    | some title => some <$> checkNonBlank title "title"
    | none => pure none
  return { title, kind := r.kind.map Text.trim, mime := givenMime? r.mime }

/-- The names of what a patch changes. -/
def NotePatch.changed (p : NotePatch) : List String :=
  (if p.title.isSome then ["title"] else []) ++ (if p.kind.isSome then ["type"] else [])
    ++ if p.mime.isSome then ["mime"] else []

/-- A list of texts, as it is shown in a report. -/
def shownList (ss : List String) : String :=
  "[" ++ ", ".intercalate (ss.map Text.shown) ++ "]"

namespace Service

/-- Checks the new type of a note, if there is one. -/
def checkNewType (s : Service) (id : NoteId) (p : NotePatch) : ServiceAction Unit :=
  match p.kind with
  | none => return ()
  | some kind => do
    let mime ←
      match p.mime with
      | some mime => pure mime
      | none => Note.mime <$> ServiceAction.call (s.client.getNote id.text)
    Action.ofExcept (checkNoteType kind (some mime))

/-- Sends a patch, unless it changes nothing, and gives the names of what it changes. -/
def applyPatch (s : Service) (id : NoteId) (p : NotePatch) : ServiceAction (List String) := do
  if p.isEmpty then return []
  let _ ← ServiceAction.call (s.client.patchNote id.text p)
  return p.changed

/-- Replaces the content, if there is a new one, and says whether a revision was saved. -/
def replaceContent (s : Service) (id : NoteId) (content : Option String) (createRevision : Bool) :
    ServiceAction Bool :=
  match content with
  | none => return false
  | some content => do
    if createRevision then ServiceAction.call (s.client.createRevision id.text)
    ServiceAction.call (s.client.putContent id.text content)
    return createRevision

/-- Changes a note. -/
def update (s : Service) (r : UpdateRequest) : ServiceAction UpdateResponse := do
  let id ← Action.ofExcept (checkNoteId r.noteId)
  let patch ← Action.ofExcept r.patch
  if patch.isEmpty && r.content.isNone then throw (.invalidRequest .nothingToUpdate)
  s.checkNewType id patch
  let changed ← s.applyPatch id patch
  let revisionCreated ← s.replaceContent id r.content r.createRevision
  let updatedFields := changed ++ if r.content.isSome then ["content"] else []
  Action.report {
    level := .info, message := "Updated note."
    fields := [("note_id", .text id.text), ("fields", .text (shownList updatedFields)),
      ("revision_created", .bool revisionCreated)] }
  return { noteId := id.text, updatedFields, revisionCreated }

end Service

end NoteTools
