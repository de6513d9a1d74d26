import NoteTools.Tool.Schema

/-!
# Tools

The tools that are offered to callers: each has a name, a description, and a schema of its
arguments.

Main definitions:

* `Tool`, `Tool.all`, `Tool.listed`, `Tool.ofName?`;
* `Tool.name`, `Tool.description`, `Tool.schema`;
* `Tool.instructions`: what a caller is told at first.
-/

namespace NoteTools

/-- A tool. -/
inductive Tool where
  | searchNotes | getNote | createNote | updateNote | deleteNote
  deriving DecidableEq, Repr

namespace Tool

/-- The name by which a tool is called. -/
def name : Tool → String
  | .createNote => "create_note"
  | .deleteNote => "delete_note"
  | .getNote => "get_note"
  | .searchNotes => "search_notes"
  | .updateNote => "update_note"

/-- All tools. -/
def all : List Tool :=
  [.searchNotes, .getNote, .createNote, .updateNote, .deleteNote]

/-- All tools in the order of their names, as they are listed. -/
def listed : List Tool :=
  [.createNote, .deleteNote, .getNote, .searchNotes, .updateNote]

/-- The tool of a name. -/
def ofName? (name : String) : Option Tool :=
  all.find? fun t => t.name == name

/-- What a caller is told at first. -/
def instructions : String :=
  "Trove exposes Trilium notes: search with structured criteria, then read, create, update, or "
    ++ "delete notes by noteId."

/-- What a tool does. -/
def description : Tool → String
  | .createNote =>
    "Create a note under parentNoteId (root by default). Text note content is HTML."
  | .deleteNote => "Delete a note by noteId. The root note cannot be deleted."
  | .getNote =>
    "Fetch a note's metadata and attributes by noteId, with its content unless includeContent is "
      ++ "false."
  | .searchNotes =>
    "Search Trilium notes by full text, label, relation, note property, and tree position. "
      ++ "Criteria that cannot be compiled are dropped and listed in warnings."
  | .updateNote =>
    "Update a note's title, type, mime, or content. Only provided fields change; a revision is "
      ++ "saved before content is replaced unless createRevision is false."

/-! ## Arguments -/

/-- The schema of a criterion. -/
def criterionSchema : Schema :=
  let kind := Schema.text none ["label", "relation", "noteProperty", "note_property", "fulltext"]
  let op := Schema.nullable (.text none ["exists", "not_exists", "=", "!=", ">", ">=", "<", "<=",
    "contains", "starts_with", "ends_with", "regex", "not_equal"])
  .record (some true) ["property"] [["type"], ["variant"]] [
    ("property", .text (some ("Label or relation name, or a note property such as title or "
      ++ "dateCreated.")) []),
    ("type", kind),
    ("variant", kind),
    ("op", op),
    ("operator", op),
    ("value", .nullable .anyText),
    ("logic", .nullable (.text none ["AND", "OR", "and", "or"]))]

/-- The schema of a scope. -/
def scopeSchema : Schema :=
  .record none ["kind"] [["referenceNoteId"], ["noteId"]] [
    ("kind", .text none ["children", "descendants"]),
    ("referenceNoteId", .anyText),
    ("noteId", .anyText)]

/-- The schema of a tool's arguments. -/
def schema : Tool → Schema
  | .createNote => .record (some false) ["title"] [] [
      ("parentNoteId", .nullable .anyText),
      ("title", .anyText),
      ("type", .nullable .anyText),
      ("content", .nullable .anyText),
      ("mime", .nullable .anyText)]
  | .deleteNote => .record (some false) ["noteId"] [] [("noteId", .anyText)]
  | .getNote => .record (some false) ["noteId"] [] [
      ("noteId", .anyText),
      ("includeContent", .nullable .truth)]
  | .searchNotes => .record (some false) [] [] [
      ("text", .nullable (.text (some "Full-text words matched against titles and content.") [])),
      ("criteria", .list criterionSchema),
      ("hierarchy", .nullable scopeSchema),
      ("limit", .nullable (.whole 1)),
      ("includeArchived", .nullable .truth)]
  | .updateNote => .record (some false) ["noteId"] [] [
      ("noteId", .anyText),
      ("title", .nullable .anyText),
      ("type", .nullable .anyText),
      ("mime", .nullable .anyText),
      ("content", .nullable .anyText),
      ("createRevision", .nullable .truth)]

end Tool

end NoteTools
