import NoteTools.Service.Basic

/-!
# Reading a note

A note is read by its id, with its content unless the request says otherwise. The content is asked
for under the id that the server's answer gives.

Main definitions:

* `GetRequest`, `NoteView`;
* `Service.get`.
-/

namespace NoteTools

open Json

/-- A request to read a note. -/
structure GetRequest where
  /-- The id of the note. -/
  noteId : String
  /-- The content is wanted too. -/
  includeContent : Bool := true
  deriving DecidableEq, Repr

/-- A note, and its content if it was wanted. -/
structure NoteView where
  /-- The note. -/
  note : Note
  /-- The content. -/
  content : Option String
  deriving DecidableEq, Repr

/-- Decodes a request to read a note. -/
def GetRequest.decode : Decoder GetRequest := fun s => do
  let noteId := Field.required "noteId" Decoder.text
  let includeContent := Field.withDefault "includeContent" Decoder.bool true
  let r ← openRecord "GetNoteRequest" [noteId.slot, includeContent.slot] s
  return { noteId := ← r.get noteId, includeContent := ← r.get includeContent }

/-- The object of a request to read a note. -/
def GetRequest.toJson (r : GetRequest) : Json :=
  .obj [("noteId", .str r.noteId), ("includeContent", .bool r.includeContent)]

/-- The object of a note and its content. -/
def NoteView.toJson (v : NoteView) : Json :=
  .obj (("note", v.note.toJson) :: textMember? "content" v.content)

/-- Reads a note. -/
def Service.get (s : Service) (r : GetRequest) : ServiceAction NoteView := do
  let note ← ServiceAction.call (s.client.getNote r.noteId)
  let content ←
    if r.includeContent then some <$> ServiceAction.call (s.client.getContent note.noteId)
    else pure none
  Action.report {
    level := .info, message := "Fetched note."
    fields := [("note_id", .text note.noteId), ("with_content", .bool content.isSome)] }
  return { note, content }

end NoteTools
