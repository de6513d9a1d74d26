import NoteTools.Service.Basic

/-!
# Deleting a note

A note is deleted by its id; the note at the root of the tree is never deleted.

Main definitions:

* `DeleteRequest`, `DeleteResponse`;
* `Service.delete`.
-/

namespace NoteTools

open Json

/-- A request to delete a note. -/
structure DeleteRequest where
  /-- The id of the note. -/
  noteId : String
  deriving DecidableEq, Repr

/-- The answer to a deletion. -/
structure DeleteResponse where
  /-- The id of the note. -/
  noteId : String
  /-- The note was deleted. -/
  deleted : Bool
  deriving DecidableEq, Repr

/-- Decodes a request to delete a note. -/
def DeleteRequest.decode : Decoder DeleteRequest := fun s => do
  let noteId := Field.required "noteId" Decoder.text
  let r ← openRecord "DeleteNoteRequest" [noteId.slot] s
  return { noteId := ← r.get noteId }

/-- The object of a request to delete a note. -/
def DeleteRequest.toJson (r : DeleteRequest) : Json :=
  .obj [("noteId", .str r.noteId)]

/-- The object of an answer to a deletion. -/
def DeleteResponse.toJson (r : DeleteResponse) : Json :=
  .obj [("noteId", .str r.noteId), ("deleted", .bool r.deleted)]

/-- Deletes a note. -/
def Service.delete (s : Service) (r : DeleteRequest) : ServiceAction DeleteResponse := do
  let id ← Action.ofExcept (checkNoteId r.noteId)
  if id = NoteId.root then throw (.invalidRequest .rootDeletion)
  ServiceAction.call (s.client.deleteNote id.text)
  Action.report {
    level := .info, message := "Deleted note.", fields := [("note_id", .text id.text)] }
  return { noteId := id.text, deleted := true }

end NoteTools
