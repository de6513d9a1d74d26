import NoteTools.Proofs.ExchangeRuns
import NoteTools.Proofs.RecordDecoding
import NoteTools.Proofs.TrimmedText
import NoteTools.Proofs.UpdateScript

/-!
# Consistent notes

Whatever is asked of the service, and whatever the note server replies, no note is given a title, a
type or a type of content that it cannot have. A title and a type of content are sent without blanks
around them, and never empty; a type is one that there is. A type whose content means nothing
without a type of its own is sent with one, or the note was fetched immediately before and has one.

Main definitions:

* `SoundFields`, `NeedsMime`, `GivesMime`: what is asked of an object that is sent;
* `Client.Creates`, `Client.Revises`, `Client.Fetches`, `Client.Patches`: requests by their calls;
* `ConsistentAt`: what is asked of an exchange, given the one before it.

Results:

* `keeps_create`, `keeps_update`: what the calls that send such objects exchange;
* `Service.runCalls_consistent`: all exchanges of a run are consistent.
-/

namespace NoteTools

open Http

/-! ## Specification -/

/-- What stands under a key, if anything does, is a text that is not empty, with no blanks around
it. -/
def HasTrimmed (key : String) (members : List (String × Json)) : Prop :=
  ∀ value, (key, value) ∈ members →
    ∃ text, value = .str text ∧ Text.trim text = text ∧ text ≠ ""

/-- The members of an object that is sent are those that a note can have. -/
structure SoundFields (members : List (String × Json)) : Prop where
  title : HasTrimmed "title" members
  mime : HasTrimmed "mime" members
  kind : ∀ value, ("type", value) ∈ members → ∃ kind ∈ noteTypes, value = .str kind

/-- The type of an object needs a type of content. -/
def NeedsMime (members : List (String × Json)) : Prop :=
  ∃ kind ∈ ["code", "file", "image"], ("type", .str kind) ∈ members

/-- An object has a type of content. -/
def GivesMime (members : List (String × Json)) : Prop :=
  ∃ mime, ("mime", .str mime) ∈ members

namespace Client

variable (c : Client)

/-- A request creates a note with a body. -/
def Creates (request : Request) : Prop :=
  ∃ body, ({ method := .post, segments := ["create-note"], body := some body } : Call).request? c =
    some request

/-- A request saves a revision of a note, without a body. -/
def Revises (id : NoteId) (request : Request) : Prop :=
  ({ method := .post, segments := ["notes", id.text, "revision"] } : Call).request? c = some request

/-- A request fetches a note. -/
def Fetches (id : NoteId) (request : Request) : Prop :=
  ({ method := .get, segments := ["notes", id.text] } : Call).request? c = some request

/-- A request changes a note with a body. -/
def Patches (id : NoteId) (request : Request) : Prop :=
  ∃ body, ({ method := .patch, segments := ["notes", id.text], body := some body } : Call).request?
    c = some request

end Client

/-- What is asked of an exchange, given the one before it. -/
structure ConsistentAt (c : Client) (before : Option Exchange) (x : Exchange) : Prop where
  /-- What is posted saves a revision, or creates a note that has a type of content if it needs
  one. -/
  posted : x.request.method = .post →
    (∃ id, c.Revises id x.request) ∨ c.Creates x.request ∧
      ∃ members, Json.parse x.request.body = .ok (.obj members) ∧ SoundFields members ∧
        (NeedsMime members → GivesMime members)
  /-- A patch of a note has a type of content if it needs one, or the note was fetched immediately
  before, and has one. -/
  patched : x.request.method = .patch →
    ∃ id, c.Patches id x.request ∧
      ∃ members, Json.parse x.request.body = .ok (.obj members) ∧ SoundFields members ∧
        (NeedsMime members → GivesMime members ∨ ∃ y ∈ before, c.Fetches id y.request ∧
          ∃ note, acceptNote y.reply = .ok note ∧ Text.blank note.mime = false)

/-! ## Checked fields -/

theorem checkNonBlank_eq_ok {value field text : String} (h : checkNonBlank value field = .ok text) :
    Text.trim text = text ∧ text ≠ "" := by
  unfold checkNonBlank at h
  dsimp only at h
  split at h
  · cases h
  next hne =>
    obtain rfl := Except.ok.inj h
    exact ⟨Text.trim_trim value, hne⟩

theorem givenMime?_eq_some {mime : Option String} {text : String}
    (h : givenMime? mime = some text) :
    Text.trim text = text ∧ text ≠ "" := by
  obtain ⟨hmap, hne⟩ := Option.filter_eq_some_iff.mp h
  obtain ⟨given, -, rfl⟩ := Option.map_eq_some_iff.mp hmap
  exact ⟨Text.trim_trim given, of_decide_eq_true hne⟩

/-- A type that passes its check is one that there is, and has a type of content if it needs one. -/
theorem checkNoteType_eq_ok {kind : String} {mime : Option String}
    (h : checkNoteType kind mime = .ok ()) :
    kind ∈ noteTypes ∧
      (kind ∈ mimeRequiredTypes → ∃ text, mime = some text ∧ Text.blank text = false) := by
  unfold checkNoteType at h
  split at h
  · cases h
  next hkind =>
    split at h
    · cases h
    next hmime =>
      refine ⟨not_not.mp hkind, fun hrequired => ?_⟩
      have hnot : ¬mime.all Text.blank = true := fun hall => hmime ⟨hrequired, hall⟩
      cases mime with
      | none => exact absurd rfl hnot
      | some text => exact ⟨text, rfl, Bool.eq_false_iff.mpr hnot⟩

/-! ## Members of what is sent -/

theorem Json.mem_textMember?_iff {key key' : String} {text : Option String} {value : Json} :
    (key, value) ∈ textMember? key' text ↔ key = key' ∧ ∃ s, text = some s ∧ value = .str s := by
  cases text with
  | none => simp [textMember?]
  | some s => simp [textMember?]

/-- The title, the type and the type of content that an object has. -/
structure HasFields (title kind mime : Option String) (members : List (String × Json)) : Prop where
  title : ∀ value, ("title", value) ∈ members ↔ ∃ s, title = some s ∧ value = .str s
  kind : ∀ value, ("type", value) ∈ members ↔ ∃ s, kind = some s ∧ value = .str s
  mime : ∀ value, ("mime", value) ∈ members ↔ ∃ s, mime = some s ∧ value = .str s

namespace HasFields

variable {title kind mime : Option String} {members : List (String × Json)}

theorem soundFields (h : HasFields title kind mime members)
    (htitle : ∀ s, title = some s → Text.trim s = s ∧ s ≠ "")
    (hkind : ∀ s, kind = some s → s ∈ noteTypes)
    (hmime : ∀ s, mime = some s → Text.trim s = s ∧ s ≠ "") : SoundFields members where
  title value hvalue := by
    obtain ⟨s, hs, rfl⟩ := (h.title value).mp hvalue
    exact ⟨s, rfl, htitle s hs⟩
  mime value hvalue := by
    obtain ⟨s, hs, rfl⟩ := (h.mime value).mp hvalue
    exact ⟨s, rfl, hmime s hs⟩
  kind value hvalue := by
    obtain ⟨s, hs, rfl⟩ := (h.kind value).mp hvalue
    exact ⟨s, hkind s hs, rfl⟩

theorem exists_of_needsMime (h : HasFields title kind mime members) (hneeds : NeedsMime members) :
    ∃ s, kind = some s ∧ s ∈ mimeRequiredTypes := by
  obtain ⟨s, hrequired, hmem⟩ := hneeds
  obtain ⟨s', hs', heq⟩ := (h.kind _).mp hmem
  exact ⟨s', hs', Json.str.inj heq ▸ hrequired⟩

theorem givesMime (h : HasFields title kind mime members) {s : String} (hmime : mime = some s) :
    GivesMime members :=
  ⟨s, (h.mime _).mpr ⟨s, hmime, rfl⟩⟩

end HasFields

/-- What an object is read back as. -/
theorem NewNote.parse_toJson (n : NewNote) :
    ∃ members, Json.parse n.toJson.text = .ok (.obj members) ∧
      HasFields (some n.title) (some n.kind) n.mime members := by
  refine ⟨_, Json.parse_text ?_, ?_, ?_, ?_⟩
  · exact Json.exactMembers_append ⟨trivial, trivial, trivial, trivial, trivial⟩
      (Json.exactMembers_textMember? _ _)
  all_goals
    intro value
    simp [Json.mem_textMember?_iff]

theorem NotePatch.hasFields (p : NotePatch) : HasFields p.title p.kind p.mime
    (Json.textMember? "title" p.title ++ Json.textMember? "type" p.kind ++
      Json.textMember? "mime" p.mime) := by
  constructor <;> intro value <;> simp [Json.mem_textMember?_iff]

/-! ## Requests without such an object -/

namespace ConsistentAt

variable {c : Client} {before : Option Exchange} {x : Exchange}

/-- What is neither posted nor patched is consistent. -/
theorem of_method (hpost : x.request.method ≠ .post) (hpatch : x.request.method ≠ .patch) :
    ConsistentAt c before x :=
  ⟨fun h => absurd h hpost, fun h => absurd h hpatch⟩

theorem of_call {call : Call} (h : call.request? c = some x.request)
    (hpost : call.method ≠ .post) (hpatch : call.method ≠ .patch) : ConsistentAt c before x := by
  rw [← (Call.method_body_of_request? h).1] at hpost hpatch
  exact of_method hpost hpatch

theorem of_revises (id : NoteId) (h : c.Revises id x.request) : ConsistentAt c before x where
  posted _ := .inl ⟨id, h⟩
  patched hpatch := by
    rw [(Call.method_body_of_request? h).1] at hpatch
    cases hpatch

end ConsistentAt

/-! ## Creating a note -/

section
open NoteTools.Action
variable {c : Client} (s : Service)

/-- What is sent for a request has passed its checks. -/
theorem CreateRequest.newNote_eq_ok {r : CreateRequest} {new : NewNote} (h : r.newNote = .ok new) :
    (Text.trim new.title = new.title ∧ new.title ≠ "") ∧
      checkNoteType new.kind new.mime = .ok () ∧ new.mime = givenMime? r.mime := by
  unfold CreateRequest.newNote at h
  obtain ⟨title, htitle, h⟩ := Json.bind_eq_ok_iff.mp h
  obtain ⟨parent, -, h⟩ := Json.bind_eq_ok_iff.mp h
  obtain ⟨_, hkind, h⟩ := Json.bind_eq_ok_iff.mp h
  obtain rfl := Except.ok.inj h
  exact ⟨checkNonBlank_eq_ok htitle, hkind, rfl⟩

/-- A note that is created is consistent. -/
theorem ConsistentAt.of_newNote {r : CreateRequest} {new : NewNote} (h : r.newNote = .ok new)
    {before : Option Exchange} {x : Exchange}
    (hrequest : (⟨.post, ["create-note"], [], some (.json new.toJson)⟩ : Call).request? c =
      some x.request) : ConsistentAt c before x where
  posted _ := by
    obtain ⟨htitle, hkind, hmime⟩ := r.newNote_eq_ok h
    obtain ⟨hknown, hrequired⟩ := checkNoteType_eq_ok hkind
    obtain ⟨members, hparse, hfields⟩ := new.parse_toJson
    refine .inr ⟨⟨_, hrequest⟩, members, ?_, ?_, ?_⟩
    · rw [(Call.method_body_of_request? hrequest).2]
      exact hparse
    · refine hfields.soundFields ?_ ?_ ?_
      · rintro s ⟨⟩
        exact htitle
      · rintro s ⟨⟩
        exact hknown
      · intro s hs
        exact givenMime?_eq_some (hmime ▸ hs)
    · intro hneeds
      obtain ⟨kind, ⟨⟩, hmem⟩ := hfields.exists_of_needsMime hneeds
      obtain ⟨mime, hgiven, -⟩ := hrequired hmem
      exact hfields.givesMime hgiven
  patched hpatch := by
    rw [(Call.method_body_of_request? hrequest).1] at hpatch
    cases hpatch

theorem keeps_create (r : CreateRequest) : Keeps (ConsistentAt s.client) (s.create r) := by
  unfold Service.create
  refine keeps_ofExcept_bind fun new hnew => ?_
  have hcreate : Keeps (ConsistentAt s.client) (s.client.createNote new) :=
    (keeps_send ⟨.post, ["create-note"], [], some (.json new.toJson)⟩ isPlain_newNote
      fun _ _ hrequest => .of_newNote hnew hrequest).bind fun reply =>
        keeps_decodeReply PlacedNote.decode reply
  exact (hcreate.mapError _).bind fun created => (keeps_report _).bind fun _ => keeps_pure _

/-! ## Changing a note -/

theorem play_exchanged (t : Session) (script : List Stage) :
    t.Exchanged ((play c t.server script).after t)
      ((play c t.server script).played.map Played.exchange) where
  requests := rfl
  replies := by
    rw [List.map_map]
    exact play_gives t.server script

/-- A change that has failed with an error of a call has passed the check of its new type, unless
the inquiry has failed. -/
theorem typeCheck_of_run {r : UpdateRequest} (h : r.Acceptable) {t : Session} {error : ApiError}
    (hnone : (play s.client t.server r.inquiry).error? = none)
    (herror : (play s.client t.server r.script).error? = some error)
    (hrun : (Action.run (s.update r) t).1 = .error (.ofApi error)) :
    r.typeCheck (play s.client t.server r.inquiry).fetchedMime = .ok () := by
  cases htype : r.typeCheck (play s.client t.server r.inquiry).fetchedMime with
  | ok _ => rfl
  | error e =>
    obtain ⟨fault, rfl⟩ := UpdateRequest.typeCheck_error htype
    rw [run_update_eq h, Action.run_bind, run_checkNewType s r ⟨r.trimmedId, h.id⟩ rfl, Play.result,
      hnone, htype] at hrun
    exact absurd (Except.error.inj hrun).symm
      (ofApi_ne_invalidRequest (ne_badNoteId_of_play herror) fault)

/-- A change exchanges its inquiry at most, or the new type has passed its check and stages of the
changes are exchanged too. -/
theorem run_update_exchanged {r : UpdateRequest} (h : r.Acceptable) (t : Session) :
    let p := play s.client t.server r.inquiry
    let q := play s.client p.server r.changes
    t.Exchanged (Action.run (s.update r) t).2 (p.played.map Played.exchange) ∨
      p.error? = none ∧ r.typeCheck p.fetchedMime = .ok () ∧
        t.Exchanged (Action.run (s.update r) t).2 ((p.played ++ q.played).map Played.exchange) := by
  intro p q
  have hinquiry := play_exchanged (c := s.client) t r.inquiry
  have hscript := play_exchanged (c := s.client) t r.script
  have hrun := run_update_of_acceptable s h t
  cases herror : p.error? with
  | some error =>
    -- The script has ended with the inquiry.
    have hplay : play s.client t.server r.script = p := play_append_of_error herror
    obtain ⟨fault, hnone, -⟩ | ⟨error', -, hrun⟩ | ⟨event, hnone, -⟩ := hrun
    · rw [herror] at hnone
      cases hnone
    · rw [hrun, hplay]
      exact .inl hinquiry
    · rw [hplay, herror] at hnone
      cases hnone
  | none =>
    have hplay : play s.client t.server r.script = ⟨p.played ++ q.played, q.error?, q.server⟩ :=
      play_append_of_none herror
    obtain ⟨fault, -, -, hrun⟩ | ⟨error, hfails, hrun⟩ | ⟨event, -, htype, hrun⟩ := hrun
    · rw [hrun]
      exact .inl hinquiry
    · have htype := typeCheck_of_run s h herror hfails (congrArg Prod.fst hrun)
      rw [hrun]
      rw [hplay] at hscript ⊢
      exact .inr ⟨rfl, htype, hscript⟩
    · rw [hrun]
      rw [hplay] at hscript ⊢
      exact .inr ⟨rfl, htype, hscript.requests, hscript.replies⟩

end

/-! ### The exchanges of a change -/

section
variable {c : Client} {r : UpdateRequest} {server : Server}

/-- An inquiry is consistent. -/
theorem consistentAt_of_mem_inquiry {x : Played} (hx : x ∈ (play c server r.inquiry).played)
    (before : Option Exchange) : ConsistentAt c before x.exchange := by
  have hstage := (play_stages server r.inquiry).subset (List.mem_map_of_mem hx)
  have hbuilt := play_built server r.inquiry x hx
  rw [eq_fetch_of_mem_inquiry hstage] at hbuilt
  exact .of_call hbuilt nofun nofun

/-- An inquiry is one stage at most. -/
theorem inquiry_eq_of_mem {stage : Stage} (h : stage ∈ r.inquiry) :
    r.inquiry = [.fetch r.trimmedId] := by
  unfold UpdateRequest.inquiry at h ⊢
  split at h
  next hneeded => rw [if_pos hneeded]
  · cases h

/-- A reply that is as it has to be when a note is fetched holds one. -/
theorem exists_acceptNote (c : Client) (id : NoteId) {reply : Reply}
    (h : (Stage.fetch id.text).failure? reply = none) : ∃ note, acceptNote reply = .ok note := by
  cases hnote : acceptNote reply with
  | ok note => exact ⟨note, rfl⟩
  | error error =>
    rw [((carriesOut_fetch c id).error_iff reply error).mp hnote] at h
    cases h

/-- The exchange of an inquiry that was played to its end, when a note has been fetched. -/
theorem exists_fetched (h : r.Acceptable) {mime : String}
    (hnone : (play c server r.inquiry).error? = none)
    (hmime : (play c server r.inquiry).fetchedMime = some mime) :
    ∃ y ∈ ((play c server r.inquiry).played.map Played.exchange).getLast?,
      c.Fetches ⟨r.trimmedId, h.id⟩ y.request ∧
        ∃ note, acceptNote y.reply = .ok note ∧ note.mime = mime := by
  obtain ⟨hstages, hok⟩ := play_complete server r.inquiry hnone
  have hbuilt := play_built (c := c) server r.inquiry
  obtain ⟨y, hy, hmime⟩ := Option.bind_eq_some_iff.mp hmime
  have hmem := List.mem_of_mem_head? hy
  have hinquiry := inquiry_eq_of_mem (hstages ▸ List.mem_map_of_mem hmem)
  obtain ⟨y', hplayed, hstage⟩ := List.map_eq_singleton_iff.mp (hstages.trans hinquiry)
  rw [hplayed] at hy hok hbuilt ⊢
  obtain rfl : y' = y := Option.some.inj hy
  have hsent := hbuilt y' List.mem_cons_self
  have haccepted := hok y' List.mem_cons_self
  rw [hstage] at hsent
  rw [Played.failure?, hstage] at haccepted
  obtain ⟨note, hnote⟩ := exists_acceptNote c ⟨r.trimmedId, h.id⟩ haccepted
  rw [mimeOf_of_acceptNote hnote] at hmime
  exact ⟨y'.exchange, rfl, hsent, note, hnote, Option.some.inj hmime⟩

/-- A type that is sent has passed its check. -/
theorem UpdateRequest.checkNoteType_of_typeCheck {fetched : Option String} {kind : String}
    (h : r.typeCheck fetched = .ok ()) (hkind : r.fields.kind = some kind) :
    checkNoteType kind (r.fields.mime.or fetched) = .ok () := by
  rwa [typeCheck, hkind] at h

/-- The fields of an acceptable request whose new type has passed its check are sound. -/
theorem UpdateRequest.Acceptable.soundFields (h : r.Acceptable) {fetched : Option String}
    (htype : r.typeCheck fetched = .ok ()) {members : List (String × Json)}
    (hfields : HasFields r.fields.title r.fields.kind r.fields.mime members) :
    SoundFields members := by
  refine hfields.soundFields ?_ ?_ fun mime hmime => givenMime?_eq_some hmime
  · intro title htitle
    obtain ⟨given, hgiven, rfl⟩ := Option.map_eq_some_iff.mp htitle
    refine ⟨Text.trim_trim given, ?_⟩
    rw [Ne, Text.trim_eq_empty_iff, h.title given hgiven]
    decide
  · intro kind hkind
    exact (checkNoteType_eq_ok (checkNoteType_of_typeCheck htype hkind)).1

/-- The patch behind an inquiry that was played to its end is consistent. -/
theorem consistentAt_of_patch (h : r.Acceptable) (hnone : (play c server r.inquiry).error? = none)
    (htype : r.typeCheck (play c server r.inquiry).fetchedMime = .ok ()) {x : Exchange}
    (hrequest : (Stage.patch r.trimmedId r.fields).request? c = some x.request)
    (before : Option Exchange) :
    ConsistentAt c
      (((play c server r.inquiry).played.map Played.exchange).getLast?.or before) x where
  posted hpost := by
    rw [(Call.method_body_of_request? hrequest).1] at hpost
    cases hpost
  patched _ := by
    have hfields := r.fields.hasFields
    refine ⟨⟨r.trimmedId, h.id⟩, ⟨_, hrequest⟩, _, ?_, h.soundFields htype hfields, ?_⟩
    · rw [(Call.method_body_of_request? hrequest).2]
      exact parse_patch r.fields
    · intro hneeds
      obtain ⟨kind, hkind, hrequired⟩ := hfields.exists_of_needsMime hneeds
      obtain ⟨-, hmime⟩ := checkNoteType_eq_ok (r.checkNoteType_of_typeCheck htype hkind)
      obtain ⟨mime, hmime, hblank⟩ := hmime hrequired
      obtain hgiven | ⟨given, hgiven⟩ := Option.eq_none_or_eq_some r.fields.mime
      · rw [hgiven, Option.none_or] at hmime
        obtain ⟨y, hy, hfetches, note, hnote, rfl⟩ := exists_fetched h hnone hmime
        refine .inr ⟨y, ?_, hfetches, note, hnote, hblank⟩
        rw [Option.mem_def] at hy ⊢
        rw [hy, Option.some_or]
      · exact .inl (hfields.givesMime hgiven)

/-- The stages behind the patch of a change. -/
def UpdateRequest.laterChanges (r : UpdateRequest) : List Stage :=
  (if r.content.isSome ∧ r.createRevision = true then [.revision r.trimmedId] else [])
    ++ r.content.toList.map (.content r.trimmedId)

/-- Behind the patch of a change nothing is patched, and what is posted is a revision. -/
theorem consistentAt_of_mem_laterChanges (h : r.Acceptable) {x : Played}
    (hstage : x.stage ∈ r.laterChanges) (hbuilt : x.stage.request? c = some x.request)
    (before : Option Exchange) : ConsistentAt c before x.exchange := by
  rw [UpdateRequest.laterChanges, List.mem_append] at hstage
  obtain hstage | hstage := hstage
  · split at hstage
    · rw [List.mem_singleton.mp hstage] at hbuilt
      exact .of_revises ⟨r.trimmedId, h.id⟩ hbuilt
    · cases hstage
  · obtain ⟨text, -, heq⟩ := List.mem_map.mp hstage
    rw [← heq] at hbuilt
    exact .of_call hbuilt nofun nofun

theorem holdsAlong_laterChanges (h : r.Acceptable) {played : List Played}
    (hstages : played.map Played.stage <+: r.laterChanges)
    (hbuilt : ∀ x ∈ played, x.stage.request? c = some x.request) (before : Option Exchange) :
    HoldsAlong (ConsistentAt c) before (played.map Played.exchange) := by
  apply holdsAlong_of_forall
  rw [List.forall_mem_map]
  intro x hx
  exact consistentAt_of_mem_laterChanges h (hstages.subset (List.mem_map_of_mem hx)) (hbuilt x hx)

/-- Behind an inquiry that was played to its end, the changes are consistent. -/
theorem holdsAlong_changes (h : r.Acceptable) (hnone : (play c server r.inquiry).error? = none)
    (htype : r.typeCheck (play c server r.inquiry).fetchedMime = .ok ()) (next : Server)
    (before : Option Exchange) :
    HoldsAlong (ConsistentAt c)
      (((play c server r.inquiry).played.map Played.exchange).getLast?.or before)
      ((play c next r.changes).played.map Played.exchange) := by
  have hstages := play_stages (c := c) next r.changes
  have hbuilt := play_built (c := c) next r.changes
  generalize (play c next r.changes).played = played at hstages hbuilt
  rw [UpdateRequest.changes, List.append_assoc, ← UpdateRequest.laterChanges] at hstages
  split at hstages
  · cases played with
    | nil => trivial
    | cons x rest =>
      -- The patch comes first, immediately behind the inquiry.
      obtain ⟨hstage, hrest⟩ := List.cons_prefix_cons.mp hstages
      obtain ⟨hsent, hbuilt⟩ := List.forall_mem_cons.mp hbuilt
      rw [hstage] at hsent
      exact ⟨consistentAt_of_patch h hnone htype hsent before,
        holdsAlong_laterChanges h hrest hbuilt _⟩
  · exact holdsAlong_laterChanges h hstages hbuilt _

theorem keeps_update (s : Service) (r : UpdateRequest) :
    Action.Keeps (ConsistentAt s.client) (s.update r) := by
  intro t before
  by_cases h : r.Acceptable
  · have hinquiry : HoldsAlong (ConsistentAt s.client) before
        ((play s.client t.server r.inquiry).played.map Played.exchange) := by
      apply holdsAlong_of_forall
      rw [List.forall_mem_map]
      exact fun x => consistentAt_of_mem_inquiry
    obtain hexchanged | ⟨hnone, htype, hexchanged⟩ := run_update_exchanged s h t
    · exact ⟨_, hexchanged, hinquiry⟩
    · refine ⟨_, hexchanged, ?_⟩
      rw [List.map_append, holdsAlong_append]
      exact ⟨hinquiry, holdsAlong_changes h hnone htype _ before⟩
  · obtain ⟨fault, hrun⟩ := run_update_of_not_acceptable s h t
    rw [hrun]
    exact ⟨[], .nil rfl rfl, trivial⟩

end

/-! ## Runs -/

theorem ServiceCall.keeps_perform (s : Service) (call : ServiceCall) :
    Action.Keeps (ConsistentAt s.client) (call.perform s) := by
  have hbare (before : Option Exchange) (x : Exchange)
      (h : x.request.method = .get ∨ x.request.method = .delete) :
      ConsistentAt s.client before x := by
    apply ConsistentAt.of_method
    · rcases h with h | h <;> simp [h]
    · rcases h with h | h <;> simp [h]
  cases call with
  | search r => exact (s.keeps_search hbare r).map _
  | get r => exact (s.keeps_get hbare r).map _
  | create r => exact (keeps_create s r).map _
  | update r => exact (keeps_update s r).map _
  | delete r => exact (s.keeps_delete hbare r).map _
  | checkConnection => exact (s.keeps_checkConnection hbare).map _

/-- **No inconsistent note is sent.** In whatever order calls are made, and whatever is asked and
replied, each exchange is consistent, given the one immediately before it. -/
theorem Service.runCalls_consistent (s : Service) (calls : List ServiceCall) (t : Session) :
    ∃ xs : List Exchange, t.Exchanged (s.runCalls calls t).2 xs ∧
      ∀ front x back, xs = front ++ x :: back → ConsistentAt s.client front.getLast? x := by
  obtain ⟨xs, hexchanged, hxs⟩ := runCalls_keeps (ServiceCall.keeps_perform s) calls t none
  refine ⟨xs, hexchanged, ?_⟩
  rintro front x back rfl
  exact hxs.of_append_cons

/-- A note becomes code without a type of content in the patch, which is sent right behind the
fetch; a note without one of its own is not patched. -/
example :
    ((deskService.runCalls [.update deskUpdate] (.start deskServer)).2.requests.map
        fun request => (request.method, request.target)) =
      [(.get, "/etapi/notes/n1"), (.patch, "/etapi/notes/n1"),
        (.post, "/etapi/notes/n1/revision")] ∧
    ((deskService.runCalls [.update deskUpdate]
        (.start ⟨[⟨200, none, Text.Utf8.encode "\x7b\x7d"⟩], none⟩)).2.requests.map
        fun request => (request.method, request.target)) = [(.get, "/etapi/notes/n1")] :=
  ⟨by decide +kernel, by decide +kernel⟩

end NoteTools
