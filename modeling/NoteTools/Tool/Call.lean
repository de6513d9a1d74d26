import NoteTools.Service.Create
import NoteTools.Service.Delete
import NoteTools.Service.Get
import NoteTools.Service.Search
import NoteTools.Service.Update
import NoteTools.Tool.Basic

/-!
# Calling tools

A call decodes its arguments as the tool's request and has the service carry it out. A caller's own
fault is answered by a protocol error; what goes wrong at the note server is an answer of the tool,
marked as a failure.

Main definitions:

* `ProtocolError`, `ToolResult`;
* `Tool.call`: a call of a tool;
* `Service.callTool`: a call by name.
-/

namespace NoteTools

open Json

/-- An error of the protocol in which tools are called. -/
structure ProtocolError where
  /-- The code. -/
  code : Int
  /-- The message. -/
  message : String
  deriving DecidableEq, Repr

/-- The error of a call with parameters that cannot be used. -/
def ProtocolError.invalidParams (message : String) : ProtocolError :=
  ⟨-32602, message⟩

/-- The answer of a tool. -/
structure ToolResult where
  /-- The tool has failed. -/
  isError : Bool
  /-- The answer as a value. -/
  structured : Json
  /-- The answer as texts. -/
  content : List String

/-- The answer that holds a value, with the members of its objects in the order of their keys, and
the text of that. -/
def ToolResult.ofJson (isError : Bool) (j : Json) : ToolResult :=
  { isError, structured := sorted j, content := [(sorted j).text] }

/-- Tells a failed request apart: the caller's fault, or the code of a failed answer. -/
def ServiceError.failureCode? : ServiceError → Option String
  | .invalidRequest _ => none
  | .date _ => none
  | .notFound _ => some "NOT_FOUND"
  | .serverFailure _ => some "UPSTREAM_ERROR"

/-- The answer to a failed request. -/
def answerError (e : ServiceError) : Action ProtocolError ToolResult :=
  match e.failureCode? with
  | none => throw (.invalidParams e.message)
  | some code => do
    Action.report {
      level := .warn, message := "Tool call failed."
      fields := [("error_code", .text code), ("error", .text e.message)] }
    return .ofJson true (.obj [("error_code", .str code), ("message", .str e.message)])

/-- The answer to a request that the service carries out. -/
def respond (a : ServiceAction Json) : Action ProtocolError ToolResult :=
  ExceptT.mk fun s =>
    match a.run s with
    | (.ok j, t) => (.ok (.ofJson false j), t)
    | (.error e, t) => (answerError e).run t

/-- Decodes the arguments of a call, and answers the request. -/
def decodeAndRespond {α : Type} (d : Decoder α) (act : α → ServiceAction Json)
    (arguments : Json) : Action ProtocolError ToolResult :=
  match decodeValue d arguments with
  | .ok request => respond (act request)
  | .error e => throw (.invalidParams ("Invalid arguments: " ++ e.message))

/-- Calls a tool. -/
def Tool.call (s : Service) : Tool → Json → Action ProtocolError ToolResult
  | .createNote => decodeAndRespond CreateRequest.decode fun r => PlacedNote.toJson <$> s.create r
  | .deleteNote => decodeAndRespond DeleteRequest.decode fun r =>
      DeleteResponse.toJson <$> s.delete r
  | .getNote => decodeAndRespond GetRequest.decode fun r => NoteView.toJson <$> s.get r
  | .searchNotes => decodeAndRespond SearchRequest.decode fun r =>
      SearchResponse.toJson <$> s.search r
  | .updateNote => decodeAndRespond UpdateRequest.decode fun r =>
      UpdateResponse.toJson <$> s.update r

/-- Calls the tool of a name. -/
def Service.callTool (s : Service) (name : String) (arguments : Json) :
    Action ProtocolError ToolResult :=
  match Tool.ofName? name with
  | some t => t.call s arguments
  | none => throw (.invalidParams "tool not found")

end NoteTools
