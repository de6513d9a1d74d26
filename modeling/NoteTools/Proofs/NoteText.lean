import NoteTools.Note.Codec
import NoteTools.Proofs.JsonText
import NoteTools.Proofs.Utf8Text
import NoteTools.Proofs.WrittenRecords

/-!
# Notes as text

A note, a branch, and a note with its place are written as JSON text, and the text is decoded as the
value that was written, whatever the texts of the value hold and for all its numbers. The layout of
each record is stated once; that its fields are read back follows from the layout alone.

Main definitions:

* `Attribute.layout`, `Note.layout`, `Branch.layout`, `PlacedNote.layout`: the layouts;
* `TextRoundTrip`: values are read back from their text.

Results:

* `Note.decode_toJson`, `Branch.decode_toJson`, `PlacedNote.decode_toJson`: what is written is
  decoded, however it is scanned;
* `Note.exact_toJson`, `Branch.exact_toJson`, `PlacedNote.exact_toJson`: the numbers that are
  written are whole and have at most 64 bits;
* `notes_textRoundTrip`: notes, branches and notes with a place are read back from their text.
-/

namespace NoteTools

open Json Text

/-! ## Numbers -/

theorem toInt_bounds (i : Int64) :
    -0x8000000000000000 ≤ i.toInt ∧ i.toInt ≤ 0x7FFFFFFFFFFFFFFF := by
  have hlow := i.le_toInt
  have hhigh := i.toInt_lt
  constructor <;> omega

/-- A number of 64 bits is decoded as itself. -/
theorem Json.Faithful.int64 {view : Json → Scan} (hview : Faithful view) (i : Int64) :
    Decoder.int64 (view (ofInt64 i)) = .ok i := by
  rw [ofInt64, Json.int, hview.num, Decoder.int64, Decoder.whole, if_pos (toInt_bounds i)]
  show Except.ok (Int64.ofInt i.toInt) = _
  rw [Int64.ofInt_toInt]

theorem exact_ofInt64 (i : Int64) : Exact (ofInt64 i) := by
  obtain ⟨hlow, hhigh⟩ := toInt_bounds i
  show Fits i.toInt
  constructor <;> omega

/-! ## Layouts -/

/-- The layout of attributes. -/
def Attribute.layout : Layout Attribute where
  title := "Attribute"
  filled a := [
    ⟨⟨_, Field.withDefault "attributeId" Decoder.text ""⟩, a.attributeId⟩,
    ⟨⟨_, Field.withDefault "noteId" Decoder.text ""⟩, a.noteId⟩,
    ⟨⟨_, Field.withDefault "type" Decoder.text ""⟩, a.kind⟩,
    ⟨⟨_, Field.withDefault "name" Decoder.text ""⟩, a.name⟩,
    ⟨⟨_, Field.withDefault "value" Decoder.text ""⟩, a.value⟩,
    ⟨⟨_, Field.withDefault "position" Decoder.int64 0⟩, a.position⟩,
    ⟨⟨_, Field.withDefault "isInheritable" Decoder.bool false⟩, a.isInheritable⟩]
  decode := Attribute.decode

/-- The layout of notes. -/
def Note.layout : Layout Note where
  title := "Note"
  filled n := [
    ⟨⟨_, Field.withDefault "noteId" Decoder.text ""⟩, n.noteId⟩,
    ⟨⟨_, Field.withDefault "title" Decoder.text ""⟩, n.title⟩,
    ⟨⟨_, Field.withDefault "type" Decoder.text ""⟩, n.kind⟩,
    ⟨⟨_, Field.withDefault "mime" Decoder.text ""⟩, n.mime⟩,
    ⟨⟨_, Field.withDefault "isProtected" Decoder.bool false⟩, n.isProtected⟩,
    ⟨⟨_, Field.withDefault "attributes" (Decoder.list Attribute.decode) []⟩, n.attributes⟩,
    ⟨⟨_, Field.withDefault "parentNoteIds" (Decoder.list Decoder.text) []⟩, n.parentNoteIds⟩,
    ⟨⟨_, Field.withDefault "childNoteIds" (Decoder.list Decoder.text) []⟩, n.childNoteIds⟩,
    ⟨⟨_, Field.withDefault "dateCreated" Decoder.text ""⟩, n.dateCreated⟩,
    ⟨⟨_, Field.withDefault "dateModified" Decoder.text ""⟩, n.dateModified⟩,
    ⟨⟨_, Field.withDefault "utcDateCreated" Decoder.text ""⟩, n.utcDateCreated⟩,
    ⟨⟨_, Field.withDefault "utcDateModified" Decoder.text ""⟩, n.utcDateModified⟩]
  decode := Note.decode

/-- The layout of branches. -/
def Branch.layout : Layout Branch where
  title := "Branch"
  filled b := [
    ⟨⟨_, Field.withDefault "branchId" Decoder.text ""⟩, b.branchId⟩,
    ⟨⟨_, Field.withDefault "noteId" Decoder.text ""⟩, b.noteId⟩,
    ⟨⟨_, Field.withDefault "parentNoteId" Decoder.text ""⟩, b.parentNoteId⟩,
    ⟨⟨_, Field.withDefault "prefix" (Decoder.optional Decoder.text) none⟩, b.titlePrefix⟩,
    ⟨⟨_, Field.withDefault "notePosition" Decoder.int64 0⟩, b.notePosition⟩,
    ⟨⟨_, Field.withDefault "isExpanded" Decoder.bool false⟩, b.isExpanded⟩]
  decode := Branch.decode

/-- The layout of notes with a place. -/
def PlacedNote.layout : Layout PlacedNote where
  title := "NoteWithBranch"
  filled p := [
    ⟨⟨_, Field.required "note" Note.decode⟩, p.note⟩,
    ⟨⟨_, Field.required "branch" Branch.decode⟩, p.branch⟩]
  decode := PlacedNote.decode

/-! ## What is written is decoded -/

section
variable {view : Json → Scan} (hview : Faithful view)
include hview

theorem Json.Faithful.texts (texts : List String) :
    Decoder.list Decoder.text (view (.strs texts)) = .ok texts :=
  hview.list_map texts fun s _ => hview.text s

theorem Attribute.decode_toJson (a : Attribute) : Attribute.decode (view a.toJson) = .ok a := by
  apply Attribute.layout.decode_obj hview
  exact .given (hview.text _) <| .given (hview.text _) <| .given (hview.text _) <|
    .given (hview.text _) <| .given (hview.text _) <| .given (hview.int64 _) <|
    .given (hview.truth _) .nil

theorem Note.decode_toJson (n : Note) : Note.decode (view n.toJson) = .ok n := by
  have hattributes :
      Decoder.list Attribute.decode (view (.arr (n.attributes.map Attribute.toJson))) =
      .ok n.attributes := hview.list_map n.attributes fun a _ => Attribute.decode_toJson hview a
  apply Note.layout.decode_obj hview
  exact .given (hview.text _) <| .given (hview.text _) <| .given (hview.text _) <|
    .given (hview.text _) <| .given (hview.truth _) <| .given hattributes <|
    .given (hview.texts _) <| .given (hview.texts _) <| .given (hview.text _) <|
    .given (hview.text _) <| .given (hview.text _) <| .given (hview.text _) .nil

theorem Branch.decode_toJson (b : Branch) : Branch.decode (view b.toJson) = .ok b := by
  apply Branch.layout.decode_obj hview
  exact .given (hview.text _) <| .given (hview.text _) <| .given (hview.text _) <|
    .given (hview.optionalText _) <| .given (hview.int64 _) <| .given (hview.truth _) .nil

theorem PlacedNote.decode_toJson (p : PlacedNote) : PlacedNote.decode (view p.toJson) = .ok p := by
  apply PlacedNote.layout.decode_obj hview
  exact .given (Note.decode_toJson hview p.note) <|
    .given (Branch.decode_toJson hview p.branch) .nil

end

/-! ## The numbers that are written -/

namespace Json

theorem exactItems_iff {items : List Json} : ExactItems items ↔ ∀ j ∈ items, Exact j := by
  induction items with
  | nil => simp [ExactItems]
  | cons j items ih => rw [ExactItems, ih, List.forall_mem_cons]

theorem exactMembers_iff {members : List (String × Json)} :
    ExactMembers members ↔ ∀ m ∈ members, Exact m.2 := by
  induction members with
  | nil => simp [ExactMembers]
  | cons m members ih => rw [ExactMembers, ih, List.forall_mem_cons]

theorem exact_arr_map {α : Type} {encode : α → Json} {as : List α}
    (h : ∀ a ∈ as, Exact (encode a)) : Exact (.arr (as.map encode)) := by
  rw [Exact, exactItems_iff]
  intro j hj
  obtain ⟨a, ha, rfl⟩ := List.mem_map.mp hj
  exact h a ha

theorem exact_strs (texts : List String) : Exact (.strs texts) :=
  exact_arr_map fun _ _ => trivial

theorem exact_ofText? (text : Option String) : Exact (ofText? text) := by
  cases text <;> trivial

end Json

theorem Attribute.exact_toJson (a : Attribute) : Exact a.toJson := by
  have hposition := exact_ofInt64 a.position
  simp [Attribute.toJson, Exact, ExactMembers, hposition]

theorem Note.exact_toJson (n : Note) : Exact n.toJson := by
  have hattributes : ExactItems (n.attributes.map Attribute.toJson) :=
    exact_arr_map fun a _ => a.exact_toJson
  simp [Note.toJson, Exact, ExactMembers, hattributes, exact_strs]

theorem Branch.exact_toJson (b : Branch) : Exact b.toJson := by
  have hposition := exact_ofInt64 b.notePosition
  have hprefix := exact_ofText? b.titlePrefix
  simp [Branch.toJson, Exact, ExactMembers, hposition, hprefix]

theorem PlacedNote.exact_toJson (p : PlacedNote) : Exact p.toJson := by
  simp [PlacedNote.toJson, Exact, ExactMembers, p.note.exact_toJson, p.branch.exact_toJson]

/-! ## Text -/

/-- Values are read back from their text, and from the octets of their text. What a text was read as
is written as a text that is read as the same, and written as the same text again. -/
structure TextRoundTrip {α : Type} (decode : Decoder α) (toJson : α → Json) : Prop where
  /-- A value is read back from its text. -/
  written : ∀ a, decodeText decode (toJson a).text = .ok a
  /-- A value is read back from the octets of its text, as they come in a reply. -/
  octets : ∀ a, decodeGlyphs decode (Utf8.pieces (Utf8.encode (toJson a).text)) = .ok a
  /-- What a text was read as is written and read again, and nothing changes any more. -/
  reread : ∀ text a, decodeText decode text = .ok a →
    ∃ b, decodeText decode (toJson a).text = .ok b ∧ b = a ∧ (toJson b).text = (toJson a).text

theorem decodeText_text {α : Type} {decode : Decoder α} {j : Json} {a : α} (hexact : Exact j)
    (h : decode (Scan.asIs .closed j) = .ok a) : decodeText decode j.text = .ok a := by
  have hdocument : Document.ofGlyphs (glyphs j.text) = ⟨Scan.asIs .closed j, false⟩ :=
    ofText_text hexact
  rw [decodeText, decodeGlyphs, hdocument, h]
  rfl

/-- Values whose numbers are written exactly, and that are decoded as they stand, are read back. -/
theorem textRoundTrip_of_decode {α : Type} {decode : Decoder α} {toJson : α → Json}
    (hexact : ∀ a, Exact (toJson a)) (h : ∀ a, decode (Scan.asIs .closed (toJson a)) = .ok a) :
    TextRoundTrip decode toJson where
  written a := decodeText_text (hexact a) (h a)
  octets a := by
    rw [Utf8.pieces_encode]
    exact decodeText_text (hexact a) (h a)
  reread _ a _ := ⟨a, decodeText_text (hexact a) (h a), rfl, rfl⟩

/-- **Notes are read back from their text**, and so are branches and notes with a place. -/
theorem notes_textRoundTrip :
    TextRoundTrip Note.decode Note.toJson ∧ TextRoundTrip Branch.decode Branch.toJson ∧
      TextRoundTrip PlacedNote.decode PlacedNote.toJson := by
  have hview : Faithful (Scan.asIs .closed) := faithful_asIs trivial
  refine ⟨?_, ?_, ?_⟩
  · exact textRoundTrip_of_decode Note.exact_toJson (Note.decode_toJson hview)
  · exact textRoundTrip_of_decode Branch.exact_toJson (Branch.decode_toJson hview)
  · exact textRoundTrip_of_decode PlacedNote.exact_toJson (PlacedNote.decode_toJson hview)

end NoteTools
