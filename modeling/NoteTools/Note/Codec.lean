import NoteTools.Json.Decode
import NoteTools.Note.Basic

/-!
# Notes as JSON

The server's replies are decoded leniently: every field of a note, an attribute, a branch and the
application's description has a default, and unknown keys are passed over. What is sent has its keys
in the order of the fields.

Main definitions:

* `Note.decode`, `Branch.decode`, `PlacedNote.decode`, `AppInfo.decode`, `SearchResults.decode`;
* `Note.toJson`, `Branch.toJson`, `PlacedNote.toJson`;
* `NewNote.toJson`, `NotePatch.toJson`.
-/

namespace NoteTools

open Json

/-! ## Decoding -/

/-- Decodes an attribute. -/
def Attribute.decode : Decoder Attribute := fun s => do
  let attributeId := Field.withDefault "attributeId" Decoder.text ""
  let noteId := Field.withDefault "noteId" Decoder.text ""
  let kind := Field.withDefault "type" Decoder.text ""
  let name := Field.withDefault "name" Decoder.text ""
  let value := Field.withDefault "value" Decoder.text ""
  let position := Field.withDefault "position" Decoder.int64 0
  let isInheritable := Field.withDefault "isInheritable" Decoder.bool false
  let r ← openRecord "Attribute" [attributeId.slot, noteId.slot, kind.slot, name.slot, value.slot,
    position.slot, isInheritable.slot] s
  return {
    attributeId := ← r.get attributeId
    noteId := ← r.get noteId
    kind := ← r.get kind
    name := ← r.get name
    value := ← r.get value
    position := ← r.get position
    isInheritable := ← r.get isInheritable }

/-- Decodes a note. -/
def Note.decode : Decoder Note := fun s => do
  let noteId := Field.withDefault "noteId" Decoder.text ""
  let title := Field.withDefault "title" Decoder.text ""
  let kind := Field.withDefault "type" Decoder.text ""
  let mime := Field.withDefault "mime" Decoder.text ""
  let isProtected := Field.withDefault "isProtected" Decoder.bool false
  let attributes := Field.withDefault "attributes" (Decoder.list Attribute.decode) []
  let parentNoteIds := Field.withDefault "parentNoteIds" (Decoder.list Decoder.text) []
  let childNoteIds := Field.withDefault "childNoteIds" (Decoder.list Decoder.text) []
  let dateCreated := Field.withDefault "dateCreated" Decoder.text ""
  let dateModified := Field.withDefault "dateModified" Decoder.text ""
  let utcDateCreated := Field.withDefault "utcDateCreated" Decoder.text ""
  let utcDateModified := Field.withDefault "utcDateModified" Decoder.text ""
  let r ← openRecord "Note" [noteId.slot, title.slot, kind.slot, mime.slot, isProtected.slot,
    attributes.slot, parentNoteIds.slot, childNoteIds.slot, dateCreated.slot, dateModified.slot,
    utcDateCreated.slot, utcDateModified.slot] s
  return {
    noteId := ← r.get noteId
    title := ← r.get title
    kind := ← r.get kind
    mime := ← r.get mime
    isProtected := ← r.get isProtected
    attributes := ← r.get attributes
    parentNoteIds := ← r.get parentNoteIds
    childNoteIds := ← r.get childNoteIds
    dateCreated := ← r.get dateCreated
    dateModified := ← r.get dateModified
    utcDateCreated := ← r.get utcDateCreated
    utcDateModified := ← r.get utcDateModified }

/-- Decodes a branch. -/
def Branch.decode : Decoder Branch := fun s => do
  let branchId := Field.withDefault "branchId" Decoder.text ""
  let noteId := Field.withDefault "noteId" Decoder.text ""
  let parentNoteId := Field.withDefault "parentNoteId" Decoder.text ""
  let titlePrefix := Field.withDefault "prefix" (Decoder.optional Decoder.text) none
  let notePosition := Field.withDefault "notePosition" Decoder.int64 0
  let isExpanded := Field.withDefault "isExpanded" Decoder.bool false
  let r ← openRecord "Branch" [branchId.slot, noteId.slot, parentNoteId.slot, titlePrefix.slot,
    notePosition.slot, isExpanded.slot] s
  return {
    branchId := ← r.get branchId
    noteId := ← r.get noteId
    parentNoteId := ← r.get parentNoteId
    titlePrefix := ← r.get titlePrefix
    notePosition := ← r.get notePosition
    isExpanded := ← r.get isExpanded }

/-- Decodes a note with a place. -/
def PlacedNote.decode : Decoder PlacedNote := fun s => do
  let note := Field.required "note" Note.decode
  let branch := Field.required "branch" Branch.decode
  let r ← openRecord "NoteWithBranch" [note.slot, branch.slot] s
  return { note := ← r.get note, branch := ← r.get branch }

/-- Decodes the application's description. -/
def AppInfo.decode : Decoder AppInfo := fun s => do
  let appVersion := Field.withDefault "appVersion" Decoder.text ""
  let dbVersion := Field.withDefault "dbVersion" Decoder.int64 0
  let syncVersion := Field.withDefault "syncVersion" Decoder.int64 0
  let buildDate := Field.withDefault "buildDate" Decoder.text ""
  let r ← openRecord "AppInfo" [appVersion.slot, dbVersion.slot, syncVersion.slot, buildDate.slot] s
  return {
    appVersion := ← r.get appVersion
    dbVersion := ← r.get dbVersion
    syncVersion := ← r.get syncVersion
    buildDate := ← r.get buildDate }

/-- Decodes the notes that a search found. -/
def SearchResults.decode : Decoder (List Note) := fun s => do
  let results := Field.required "results" (Decoder.list Note.decode)
  let r ← openRecord "SearchResults" [results.slot] s
  r.get results

/-! ## Encoding -/

/-- A whole number of 64 bits. -/
def ofInt64 (i : Int64) : Json := .int i.toInt

/-- The object of an attribute. -/
def Attribute.toJson (a : Attribute) : Json :=
  .obj [("attributeId", .str a.attributeId), ("noteId", .str a.noteId), ("type", .str a.kind),
    ("name", .str a.name), ("value", .str a.value), ("position", ofInt64 a.position),
    ("isInheritable", .bool a.isInheritable)]

/-- The object of a note. -/
def Note.toJson (n : Note) : Json :=
  .obj [("noteId", .str n.noteId), ("title", .str n.title), ("type", .str n.kind),
    ("mime", .str n.mime), ("isProtected", .bool n.isProtected),
    ("attributes", .arr (n.attributes.map Attribute.toJson)),
    ("parentNoteIds", .strs n.parentNoteIds), ("childNoteIds", .strs n.childNoteIds),
    ("dateCreated", .str n.dateCreated), ("dateModified", .str n.dateModified),
    ("utcDateCreated", .str n.utcDateCreated), ("utcDateModified", .str n.utcDateModified)]

/-- The object of a branch. -/
def Branch.toJson (b : Branch) : Json :=
  .obj [("branchId", .str b.branchId), ("noteId", .str b.noteId),
    ("parentNoteId", .str b.parentNoteId), ("prefix", ofText? b.titlePrefix),
    ("notePosition", ofInt64 b.notePosition), ("isExpanded", .bool b.isExpanded)]

/-- The object of a note with a place. -/
def PlacedNote.toJson (p : PlacedNote) : Json :=
  .obj [("note", p.note.toJson), ("branch", p.branch.toJson)]

/-- The object that is sent to create a note. -/
def NewNote.toJson (n : NewNote) : Json :=
  .obj ([("parentNoteId", .str n.parentNoteId), ("title", .str n.title), ("type", .str n.kind),
    ("content", .str n.content)] ++ textMember? "mime" n.mime)

/-- The object that is sent to change a note. -/
def NotePatch.toJson (p : NotePatch) : Json :=
  .obj (textMember? "title" p.title ++ textMember? "type" p.kind ++ textMember? "mime" p.mime)

end NoteTools
