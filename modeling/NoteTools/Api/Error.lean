import NoteTools.Json.Decode

/-!
# Errors of calls to the note server

A call fails before anything is sent, or because the server cannot be reached, or with the server's
refusal, or because its reply cannot be decoded.

The wording of a reply that cannot be decoded says what is wrong with it and leaves out where in the
reply that is: the ` at line L column C` with which the wording otherwise ends is not modelled.

Main definitions:

* `ApiError` and its wording;
* `ApiError.isNotFound`.
-/

namespace NoteTools

/-- Why a call to the note server fails. -/
inductive ApiError where
  /-- No request can be built: the token cannot stand in a header, or the address is none. -/
  | unbuildable
  /-- The server cannot be reached at an address. -/
  | unreachable (url : String)
  /-- The reply cannot be decoded: what is wrong with it, without the line and the column. -/
  | undecodable (e : Json.DecodeError)
  /-- The text is not the id of a note. -/
  | badNoteId (text : String)
  /-- The server refused: the status, the code and the message of its reply. -/
  | refused (status : Nat) (code message : String)
  deriving DecidableEq, Repr

/-- The wording of an error. That of a reply which cannot be decoded has no line and column. -/
def ApiError.message : ApiError → String
  | .unbuildable => "builder error"
  | .unreachable url => "error sending request for url (" ++ url ++ ")"
  | .undecodable e => e.message
  | .badNoteId text => "Invalid note id '" ++ text ++ "'."
  | .refused status code message =>
    "ETAPI returned " ++ toString status ++ " " ++ code ++ ": " ++ message

/-- The server says that there is no such note. -/
def ApiError.isNotFound : ApiError → Bool
  | .refused 404 _ _ => true
  | _ => false

end NoteTools
