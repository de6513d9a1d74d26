/-!
# Notes

The notes of the server, their attributes and their places in the tree, and what is sent to create
and to change a note.

Main definitions:

* `Attribute`, `Note`, `Branch`, `PlacedNote`, `AppInfo`;
* `NewNote`, `NotePatch`.
-/

namespace NoteTools

/-- A label or a relation of a note. -/
structure Attribute where
  /-- The id of the attribute. -/
  attributeId : String := ""
  /-- The id of the note that owns it. -/
  noteId : String := ""
  /-- Either `label` or `relation`. -/
  kind : String := ""
  /-- The name. -/
  name : String := ""
  /-- The value. -/
  value : String := ""
  /-- The place among the attributes. -/
  position : Int64 := 0
  /-- The notes below inherit the attribute. -/
  isInheritable : Bool := false
  deriving DecidableEq, Repr

/-- A note without its content. -/
structure Note where
  /-- The id. -/
  noteId : String := ""
  /-- The title. -/
  title : String := ""
  /-- The type of the note. -/
  kind : String := ""
  /-- The type of the content. -/
  mime : String := ""
  /-- The note is encrypted. -/
  isProtected : Bool := false
  /-- The labels and relations. -/
  attributes : List Attribute := []
  /-- The ids of the notes above. -/
  parentNoteIds : List String := []
  /-- The ids of the notes below. -/
  childNoteIds : List String := []
  /-- The time of creation. -/
  dateCreated : String := ""
  /-- The time of the last change. -/
  dateModified : String := ""
  /-- The time of creation in UTC. -/
  utcDateCreated : String := ""
  /-- The time of the last change in UTC. -/
  utcDateModified : String := ""
  deriving DecidableEq, Repr

/-- A place of a note in the tree. -/
structure Branch where
  /-- The id of the branch. -/
  branchId : String := ""
  /-- The id of the note. -/
  noteId : String := ""
  /-- The id of the note above. -/
  parentNoteId : String := ""
  /-- A text that is shown in front of the title in this place. -/
  titlePrefix : Option String := none
  /-- The place among the notes beside it. -/
  notePosition : Int64 := 0
  /-- The notes below are shown. -/
  isExpanded : Bool := false
  deriving DecidableEq, Repr

/-- A note together with one of its places. -/
structure PlacedNote where
  /-- The note. -/
  note : Note
  /-- The place. -/
  branch : Branch
  deriving DecidableEq, Repr

/-- What the server says of itself. -/
structure AppInfo where
  /-- The version of the application. -/
  appVersion : String := ""
  /-- The version of the database. -/
  dbVersion : Int64 := 0
  /-- The version of the synchronisation. -/
  syncVersion : Int64 := 0
  /-- The day of the build. -/
  buildDate : String := ""
  deriving DecidableEq, Repr

/-- What is sent to create a note. -/
structure NewNote where
  /-- The id of the note above. -/
  parentNoteId : String
  /-- The title. -/
  title : String
  /-- The type of the note. -/
  kind : String
  /-- The content. -/
  content : String
  /-- The type of the content. -/
  mime : Option String
  deriving DecidableEq, Repr

/-- What is sent to change a note; what is absent stays as it is. -/
structure NotePatch where
  /-- The new title. -/
  title : Option String := none
  /-- The new type of the note. -/
  kind : Option String := none
  /-- The new type of the content. -/
  mime : Option String := none
  deriving DecidableEq, Repr

/-- A patch that changes nothing. -/
def NotePatch.isEmpty (p : NotePatch) : Bool :=
  p.title.isNone && p.kind.isNone && p.mime.isNone

end NoteTools
