import NoteTools.Service.Basic

/-!
# Creating a note

A note is created below another one, the root unless the request names one. Title, type, id and type
of content are trimmed; the content is sent as it is.

Main definitions:

* `CreateRequest`, its check `CreateRequest.newNote`;
* `Service.create`.
-/

namespace NoteTools

open Json

/-- A request to create a note. -/
structure CreateRequest where
  /-- The id of the note above. -/
  parentNoteId : String := "root"
  /-- The title. -/
  title : String
  /-- The type of the note. -/
  kind : String := "text"
  /-- The content. -/
  content : String := ""
  /-- The type of the content. -/
  mime : Option String := none
  deriving DecidableEq, Repr

/-- Decodes a request to create a note. -/
def CreateRequest.decode : Decoder CreateRequest := fun s => do
  let parentNoteId := Field.withDefault "parentNoteId" Decoder.text "root"
  let title := Field.required "title" Decoder.text
  let kind := Field.withDefault "type" Decoder.text "text"
  let content := Field.withDefault "content" Decoder.text ""
  let mime := Field.withDefault "mime" (Decoder.optional Decoder.text) none
  let r ← openRecord "CreateNoteRequest"
    [parentNoteId.slot, title.slot, kind.slot, content.slot, mime.slot] s
  return {
    parentNoteId := ← r.get parentNoteId
    title := ← r.get title
    kind := ← r.get kind
    content := ← r.get content
    mime := ← r.get mime }

/-- The object of a request to create a note. -/
def CreateRequest.toJson (r : CreateRequest) : Json :=
  .obj [("parentNoteId", .str r.parentNoteId), ("title", .str r.title), ("type", .str r.kind),
    ("content", .str r.content), ("mime", ofText? r.mime)]

/-- What is sent for a request, if nothing is wrong with it. -/
def CreateRequest.newNote (r : CreateRequest) : Except ServiceError NewNote := do
  let title ← checkNonBlank r.title "title"
  let parent ← checkNoteId r.parentNoteId
  let kind := Text.trim r.kind
  let mime := givenMime? r.mime
  checkNoteType kind mime
  return { parentNoteId := parent.text, title, kind, content := r.content, mime }

/-- Creates a note. -/
def Service.create (s : Service) (r : CreateRequest) : ServiceAction PlacedNote := do
  let new ← Action.ofExcept r.newNote
  let created ← ServiceAction.call (s.client.createNote new)
  Action.report {
    level := .info, message := "Created note."
    fields := [("note_id", .text created.note.noteId),
      ("parent_note_id", .text created.branch.parentNoteId)] }
  return created

end NoteTools
