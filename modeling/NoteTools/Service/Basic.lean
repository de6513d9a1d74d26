import NoteTools.Api.Client
import NoteTools.Query.Fragment

/-!
# The note service

The service carries out requests on notes: it checks a request, calls the note server, and reports
what was done.

Main definitions:

* `RequestFault`: what is wrong with a request;
* `ServiceError`: why a request fails, with its wording;
* `noteTypes`, `checkNoteType`: the types a note can have, and those that need a type of content;
* `Service`: a client, and the settings of searches.
-/

namespace NoteTools

/-! ## Types of notes -/

/-- The types a note can have. -/
def noteTypes : List String :=
  ["text", "code", "render", "file", "image", "search", "relationMap", "book", "noteMap",
   "mermaid", "webView", "shortcut", "doc", "contentWidget", "launcher"]

/-- The types whose content means nothing without a type of its own. -/
def mimeRequiredTypes : List String :=
  ["code", "file", "image"]

/-! ## Errors -/

/-- What is wrong with a request. -/
inductive RequestFault where
  /-- A field is blank that must not be. -/
  | blankField (name : String)
  /-- A text is not the id of a note. -/
  | badNoteId (text : String)
  /-- There is no such type of notes. -/
  | unknownType (kind : String)
  /-- Notes of the type need a type of content. -/
  | mimeRequired (kind : String)
  /-- A change without anything to change. -/
  | nothingToUpdate
  /-- A search without anything to search for. -/
  | nothingToSearch
  /-- A limit of zero, or above the largest one allowed. -/
  | limitOutOfRange (largest given : UInt32)
  /-- The note at the root is to be deleted. -/
  | rootDeletion
  deriving DecidableEq, Repr

/-- The wording of a fault. -/
def RequestFault.message : RequestFault → String
  | .blankField name => name ++ " must be non-empty."
  | .badNoteId text => "'" ++ text ++ "' is not a valid note id."
  | .unknownType kind =>
    "type must be one of " ++ ", ".intercalate noteTypes ++ ", got " ++ kind ++ "."
  | .mimeRequired kind => "mime is required for " ++ kind ++ " notes."
  | .nothingToUpdate => "At least one of title, type, mime, or content is required."
  | .nothingToSearch => "At least one of text, criteria, or hierarchy is required."
  | .limitOutOfRange largest given =>
    "limit must be between 1 and " ++ toString largest.toNat ++ ", got " ++ toString given.toNat
      ++ "."
  | .rootDeletion => "The root note cannot be deleted."

/-- Why a request fails. -/
inductive ServiceError where
  /-- The request is at fault. -/
  | invalidRequest (fault : RequestFault)
  /-- A date of the request is at fault. -/
  | date (e : DateError)
  /-- The server has no such note. -/
  | notFound (message : String)
  /-- The server cannot be asked, or its answer cannot be used. -/
  | serverFailure (e : ApiError)
  deriving DecidableEq, Repr

/-- The wording of an error. -/
def ServiceError.message : ServiceError → String
  | .invalidRequest fault => "Invalid request: " ++ fault.message
  | .date e => e.message
  | .notFound message => "Not found: " ++ message
  | .serverFailure e => "Trilium error: " ++ e.message

/-- The error of a failed call. -/
def ServiceError.ofApi : ApiError → ServiceError
  | .badNoteId text => .invalidRequest (.badNoteId text)
  | .refused 404 _ message => .notFound message
  | e => .serverFailure e

/-! ## The service -/

/-- What the service works with. -/
structure Service where
  /-- The client of the note server. -/
  client : Client
  /-- The largest limit of a search. -/
  maxLimit : UInt32
  /-- Compiled queries and dropped criteria are reported. -/
  traceQueries : Bool
  deriving DecidableEq, Repr

/-- The actions of the service. -/
abbrev ServiceAction (α : Type) := Action ServiceError α

/-- A call to the note server. -/
def ServiceAction.call {α : Type} (a : Action ApiError α) : ServiceAction α :=
  a.mapError ServiceError.ofApi

/-! ## Checks -/

/-- The trimmed value of a field that must not be blank. -/
def checkNonBlank (value field : String) : Except ServiceError String :=
  let trimmed := Text.trim value
  if trimmed = "" then .error (.invalidRequest (.blankField field)) else .ok trimmed

/-- The id that a text spells. -/
def checkNoteId (text : String) : Except ServiceError NoteId :=
  match NoteId.read? text with
  | some id => .ok id
  | none => .error (.invalidRequest (.badNoteId text))

/-- Checks that a type exists, and that a type of content is there if it needs one. -/
def checkNoteType (kind : String) (mime : Option String) : Except ServiceError Unit :=
  if kind ∉ noteTypes then .error (.invalidRequest (.unknownType kind))
  else if kind ∈ mimeRequiredTypes ∧ mime.all Text.blank then
    .error (.invalidRequest (.mimeRequired kind))
  else .ok ()

/-- A type of content, trimmed; a blank one is none. -/
def givenMime? (mime : Option String) : Option String :=
  (mime.map Text.trim).filter (· ≠ "")

end NoteTools
