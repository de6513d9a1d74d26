import NoteTools.Api.Error
import NoteTools.Api.Session
import NoteTools.Http.Endpoint
import NoteTools.Http.Status
import NoteTools.Json.Printer
import NoteTools.Note.Codec
import NoteTools.Note.Id
import NoteTools.Text.Charset

/-!
# The note server's interface

A client knows the address of the interface and the token that is sent with every request. A call
puts its path behind the address, and the two are read as one text. A reply whose status is not a
success is a refusal; its code and message are read from its body, or, when the body does not have
them, they are the reason phrase of the status and the body itself.

Main definitions:

* `Client`, `Client.place?`: a client, and where the paths below its address are;
* `Client.send`: sending a request;
* `Client.searchNotes`, `getNote`, `getContent`, `createNote`, `patchNote`, `putContent`,
  `createRevision`, `deleteNote`, `appInfo`: the calls.
-/

namespace NoteTools

open Http

/-- A client of the note server. -/
structure Client where
  /-- The address of the interface, as it was given. -/
  base : String
  /-- The token. -/
  token : String
  deriving DecidableEq, Repr

/-- A search as the server is asked for it. -/
structure SearchParams where
  /-- The line to search for. -/
  search : String
  /-- Only attributes and properties are looked at, not contents. -/
  fastSearch : Bool
  /-- Archived notes are found too. -/
  includeArchivedNotes : Bool
  deriving DecidableEq, Repr

/-- A body and its type. -/
structure Body where
  /-- The type. -/
  contentType : String
  /-- The text. -/
  text : String

/-- The body that holds a value. -/
def Body.json (j : Json) : Body :=
  ⟨"application/json", j.text⟩

/-- The code and the message of a refusal, as the server writes them. -/
def Refusal.decode : Json.Decoder (String × String) := fun s => do
  let code := Json.Field.withDefault "code" Json.Decoder.text ""
  let message := Json.Field.withDefault "message" Json.Decoder.text ""
  let r ← Json.openRecord "ApiErrorBody" [code.slot, message.slot] s
  return (← r.get code, ← r.get message)

/-- The error of a reply that is not a success. -/
def refusal (reply : Reply) : ApiError :=
  let bytes := reply.content
  match Json.decodeGlyphs Refusal.decode (Text.Utf8.pieces bytes) with
  | .ok (code, message) => .refused reply.status code message
  | .error _ =>
    .refused reply.status ((reason? reply.status).getD "UNKNOWN") (Text.Utf8.lossy bytes)

namespace Client

/-- The address of the interface, without the slashes at the end. -/
def address (c : Client) : String :=
  Text.trimEnd (· == '/') c.base

/-- The endpoint of a client. -/
def endpoint? (c : Client) : Option Endpoint :=
  Endpoint.read? c.address

/-- Where a path below the address is: the address and the path are read as one text. It is assumed
that the address names a host; below one that does not, nothing is found. -/
def place? (c : Client) (segments : List String) : Option Endpoint :=
  if Endpoint.namesHost c.address then
    Endpoint.read? (c.address ++ Endpoint.pathText segments)
  else none

/-- Sends a request to a path below the address, and gives the reply if it is a success. -/
def send (c : Client) (method : Method) (segments : List String)
    (query : List (String × String)) (body : Option Body) : Action ApiError Reply :=
  match c.place? segments with
  | none => throw .unbuildable
  | some place =>
    if !isHeaderText c.token then throw .unbuildable
    else do
      let place := if query.isEmpty then place else place.withQuery query
      let reply? ← Action.exchange {
        method, target := place.target, authorization := c.token
        contentType := body.map Body.contentType, body := (body.map Body.text).getD "" }
      match reply? with
      | none => throw (.unreachable place.url)
      | some reply => if reply.isSuccess then return reply else throw (refusal reply)

/-- Decodes the body of a reply. -/
def decodeReply {α : Type} (d : Json.Decoder α) (reply : Reply) : Action ApiError α :=
  match Json.decodeGlyphs d (Text.Utf8.pieces reply.content) with
  | .ok a => return a
  | .error e => throw (.undecodable e)

/-- The id that a text spells. -/
def noteId (text : String) : Action ApiError NoteId :=
  match NoteId.read? text with
  | some id => return id
  | none => throw (.badNoteId text)

/-- Finds notes. -/
def searchNotes (c : Client) (p : SearchParams) : Action ApiError (List Note) := do
  let reply ← c.send .get ["notes"] [("search", p.search), ("fastSearch", toString p.fastSearch),
    ("includeArchivedNotes", toString p.includeArchivedNotes)] none
  decodeReply SearchResults.decode reply

/-- The note of an id. -/
def getNote (c : Client) (text : String) : Action ApiError Note := do
  let id ← noteId text
  decodeReply Note.decode (← c.send .get ["notes", id.text] [] none)

/-- The content of the note of an id. -/
def getContent (c : Client) (text : String) : Action ApiError String := do
  let id ← noteId text
  let reply ← c.send .get ["notes", id.text, "content"] [] none
  return Text.decodeText reply.contentType reply.content

/-- Creates a note. -/
def createNote (c : Client) (n : NewNote) : Action ApiError PlacedNote := do
  decodeReply PlacedNote.decode (← c.send .post ["create-note"] [] (some (.json n.toJson)))

/-- Changes the note of an id. -/
def patchNote (c : Client) (text : String) (p : NotePatch) : Action ApiError Note := do
  let id ← noteId text
  decodeReply Note.decode (← c.send .patch ["notes", id.text] [] (some (.json p.toJson)))

/-- Replaces the content of the note of an id. -/
def putContent (c : Client) (text content : String) : Action ApiError Unit := do
  let id ← noteId text
  let _ ← c.send .put ["notes", id.text, "content"] [] (some ⟨"text/plain", content⟩)

/-- Saves the content of the note of an id as a revision. -/
def createRevision (c : Client) (text : String) : Action ApiError Unit := do
  let id ← noteId text
  let _ ← c.send .post ["notes", id.text, "revision"] [] none

/-- Deletes the note of an id. -/
def deleteNote (c : Client) (text : String) : Action ApiError Unit := do
  let id ← noteId text
  let _ ← c.send .delete ["notes", id.text] [] none

/-- What the server says of itself. -/
def appInfo (c : Client) : Action ApiError AppInfo := do
  decodeReply AppInfo.decode (← c.send .get ["app-info"] [] none)

end Client

end NoteTools
