import NoteTools.Proofs.UpdateScript
import NoteTools.Proofs.Utf8Text
import NoteTools.Service.Get

/-!
# Content goes out as it is

Content that a change replaces is the body of the request, character by character. Content that is
read is decoded by the character set of the reply, and a byte order mark at the start of it decides
that set and is removed. So content in UTF-8 comes back as it is unless it starts with U+FEFF, the
character whose octets are the mark, and then that character is missing.

Main definitions:

* `withoutMark`: a text without a byte order mark at its start;
* `UpdateRequest.beforeContent`: the stages of a change before its content is replaced.

Results:

* `decodeText_encode`: the text of the octets of a text;
* `Service.run_update_content`: what a change sends last;
* `content_roundTrip`: content that is written, and content that is read.
-/

namespace NoteTools

open Http Text

namespace Text

/-! ## The mark -/

/-- A text without a byte order mark at its start. -/
def withoutMark (s : String) : String :=
  match s.toList with
  | '\uFEFF' :: rest => String.ofList rest
  | _ => s

theorem withoutMark_eq_self_iff {s : String} :
    withoutMark s = s ↔ s.toList.head? ≠ some '\uFEFF' := by
  unfold withoutMark
  split
  · next rest h =>
    rw [h, List.head?_cons]
    refine ⟨fun heq => ?_, fun hne => absurd rfl hne⟩
    have hlength := congrArg (fun s => s.toList.length) heq
    simp [h] at hlength
  · next h =>
    refine ⟨fun _ hhead => ?_, fun _ => rfl⟩
    obtain ⟨rest, hrest⟩ := List.head?_eq_some_iff.mp hhead
    exact h rest hrest

/-! ## Decoding by the character set -/

namespace Utf8

/-- An octet that starts no character is a piece of its own. -/
theorem pieces_stray {a : UInt8} (h : 0xF4 < a) (rest : List UInt8) :
    pieces (a :: rest) = none :: pieces rest := by
  rw [UInt8.lt_iff_toNat_lt, show (0xF4 : UInt8).toNat = 0xF4 from rfl] at h
  have hone : ¬a < 0x80 := by
    rw [UInt8.lt_iff_toNat_lt, show (0x80 : UInt8).toNat = 0x80 from rfl]
    omega
  have hbetween (low high : UInt8) (hhigh : high.toNat ≤ 0xF4) :
      ¬(decide (low ≤ a) && decide (a ≤ high)) = true := by
    rw [Bool.and_eq_true, decide_eq_true_eq, decide_eq_true_eq, UInt8.le_iff_toNat_le,
      UInt8.le_iff_toNat_le]
    omega
  rw [pieces.eq_def]
  dsimp only
  rw [if_neg hone, if_neg (hbetween 0xC2 0xDF (by decide)), if_neg (hbetween 0xE0 0xEF (by decide)),
    if_neg (hbetween 0xF0 0xF4 (by decide))]

/-- No text starts with such an octet. -/
theorem encode_ne_stray {a : UInt8} (h : 0xF4 < a) (s : String) (rest : List UInt8) :
    encode s ≠ a :: rest := by
  intro heq
  have hpieces := pieces_encode s
  rw [heq, pieces_stray h] at hpieces
  cases hs : s.toList with
  | nil =>
    rw [hs] at hpieces
    cases hpieces
  | cons c cs =>
    rw [hs] at hpieces
    cases hpieces

/-- A text whose octets start with those of the mark starts with its character. -/
theorem toList_of_encode_eq_mark {s : String} {rest : List UInt8}
    (h : encode s = 0xEF :: 0xBB :: 0xBF :: rest) :
    ∃ cs, s.toList = '\uFEFF' :: cs ∧ rest = encode (String.ofList cs) := by
  have hpieces := pieces_encode s
  have hmark : pieces (0xEF :: 0xBB :: 0xBF :: rest) = some '\uFEFF' :: pieces rest :=
    pieces_utf8EncodeChar '\uFEFF' rest
  rw [h, hmark] at hpieces
  cases hs : s.toList with
  | nil =>
    rw [hs] at hpieces
    cases hpieces
  | cons c cs =>
    rw [hs, List.map_cons] at hpieces
    obtain rfl : '\uFEFF' = c := Option.some.inj (List.cons.inj hpieces).1
    refine ⟨cs, rfl, ?_⟩
    rw [encode, hs, List.flatMap_cons] at h
    rw [encode, String.toList_ofList]
    have hrest : [0xEF, 0xBB, 0xBF] ++ rest =
        [0xEF, 0xBB, 0xBF] ++ cs.flatMap String.utf8EncodeChar := h.symm
    exact List.append_cancel_left hrest

end Utf8

namespace Charset

/-- Parameters stand behind the first semicolon. -/
theorem parameters_append {front : List Char} (h : ';' ∉ front) (rest : List Char) :
    parameters (front ++ rest) = parameters rest := by
  induction front with
  | nil => rfl
  | cons c front ih =>
    rw [List.mem_cons, not_or] at h
    rw [List.cons_append, parameters, ih h.2]
    rintro rfl
    exact h.1 rfl

/-- Content without a type, and content of a type whose first parameter says so, is UTF-8. -/
theorem ofContentType_utf8 {contentType : Option String}
    (h : contentType = none ∨
      ∃ kind : String, ';' ∉ kind.toList ∧ contentType = some (kind ++ "; charset=utf-8")) :
    ofContentType contentType = .utf8 := by
  obtain rfl | ⟨kind, hkind, rfl⟩ := h
  · rfl
  · have hparameters : parameters (kind ++ "; charset=utf-8").toList = [("charset", "utf-8")] := by
      rw [String.toList_append, parameters_append hkind]
      decide +kernel
    have hlabel : ofLabel? "utf-8" = some .utf8 := by decide +kernel
    unfold ofContentType
    simp only [Option.bind_eq_bind, Option.bind_some, hparameters]
    split
    · simp [hlabel]
    · rfl

end Charset

/-- **Text that was written as UTF-8** is decoded as it is, without a mark at its start. -/
theorem decodeText_encode {contentType : Option String}
    (h : Charset.ofContentType contentType = .utf8) (s : String) :
    decodeText contentType (Utf8.encode s) = withoutMark s := by
  unfold decodeText
  split
  · next rest heq =>
    obtain ⟨cs, hs, rfl⟩ := Utf8.toList_of_encode_eq_mark heq
    rw [Charset.decode, Utf8.lossy_encode, withoutMark, hs]
    rfl
  -- The marks of the other sets start with an octet that starts no character of UTF-8.
  · next rest heq => exact absurd heq (Utf8.encode_ne_stray (by decide) s _)
  · next rest heq => exact absurd heq (Utf8.encode_ne_stray (by decide) s _)
  · next hmark _ _ =>
    rw [h, Charset.decode, Utf8.lossy_encode]
    refine (withoutMark_eq_self_iff.mpr fun hhead => ?_).symm
    obtain ⟨cs, hs⟩ := List.head?_eq_some_iff.mp hhead
    refine hmark (cs.flatMap String.utf8EncodeChar) ?_
    rw [Utf8.encode, hs]
    rfl

end Text

/-! ## Writing content -/

namespace UpdateRequest

/-- The stages of a change before its content is replaced. -/
def beforeContent (r : UpdateRequest) : List Stage :=
  r.inquiry ++
    ((if r.title.isSome ∨ r.kind.isSome ∨ r.fields.mime.isSome then [.patch r.trimmedId r.fields]
      else [])
      ++ if r.content.isSome ∧ r.createRevision = true then [.revision r.trimmedId] else [])

theorem script_of_content {r : UpdateRequest} {text : String} (h : r.content = some text) :
    r.script = r.beforeContent ++ [.content r.trimmedId text] := by
  rw [script, changes, beforeContent, h, List.append_assoc, List.append_assoc, List.append_assoc]
  rfl

/-- A server that lets a change come to its content: it gives the right replies to all stages before
that, the new type passes its check, and the server can still be reached. -/
def ReachesContent (r : UpdateRequest) (server : Server) : Prop :=
  ∃ replies after, server.Gives replies after ∧ replies.length = r.beforeContent.length ∧
    (∀ x ∈ r.beforeContent.zip replies, x.1.failure? x.2 = none) ∧
    r.typeCheck (replies.head?.bind mimeOf) = .ok () ∧ after.answer ≠ none

end UpdateRequest

section
variable {c : Client} {e : Endpoint} {r : UpdateRequest} {text : String}

/-- What a change puts is its content. -/
theorem put_of_follows (he : c.ready? = some e) (htext : r.content = some text) {t t' : Session}
    {played : List Played} (h : Follows c r.script t t' played) :
    ∀ request ∈ played.map Played.request, request.method = .put →
      request = (Stage.content r.trimmedId text).request c e := by
  intro request hrequest hmethod
  obtain ⟨x, hx, rfl⟩ := List.mem_map.mp hrequest
  have hbuilt := h.built x hx
  obtain ⟨hstage, -⟩ := Call.method_body_of_request? hbuilt
  rw [hstage] at hmethod
  rw [Call.request?, he] at hbuilt
  obtain hcase | hcase | hcase | ⟨text', htext', hcase⟩ := script_cases (h.mem_script hx)
  · rw [hcase] at hmethod
    cases hmethod
  · rw [hcase] at hmethod
    cases hmethod
  · rw [hcase] at hmethod
    cases hmethod
  · obtain rfl := Option.some.inj (htext.symm.trans htext')
    rw [← Option.some.inj hbuilt, hcase]

/-- The content is replaced last, if the server lets the change come to it. -/
theorem play_content (he : c.ready? = some e) (htext : r.content = some text) {server : Server}
    (h : r.ReachesContent server) :
    r.typeCheck (play c server r.inquiry).fetchedMime = .ok () ∧
      ((play c server r.script).played.map Played.request).getLast? =
        some ((Stage.content r.trimmedId text).request c e) := by
  obtain ⟨replies, after, hgives, hlength, hok, htype, hanswer⟩ := h
  obtain ⟨hnone, hreplies⟩ := play_of_gives he hgives hlength hok
  obtain ⟨⟨reply, next⟩, hreply⟩ := Option.ne_none_iff_exists'.mp hanswer
  -- The replies that were given fix where the server stands, and there it answers once more.
  have hafter : (play c server r.beforeContent).server = after := by
    have hplay := play_gives (c := c) server r.beforeContent
    rw [hreplies] at hplay
    exact (hplay.unique hgives rfl).2
  constructor
  · rw [← typeCheck_play hnone]
    exact (congrArg (fun replies => r.typeCheck (replies.head?.bind mimeOf)) hreplies).trans htype
  · rw [UpdateRequest.script_of_content htext, play_append_of_none hnone]
    dsimp only
    rw [hafter, play, Call.exchange_of_answer he hreply]
    dsimp only
    split <;> simp [Played.request, play]

end

/-- An id is spelled by its text, with blanks around it. -/
theorem NoteId.text_of_read? {text : String} {id : NoteId} (h : NoteId.read? text = some id) :
    id.text = trim text := by
  unfold NoteId.read? at h
  split at h
  · rw [← Option.some.inj h]
  · cases h

/-- **What a change sends.** Content that is put is the content of the change, to the note of its
id; and it is put in the last request, if the server lets the change come to it. -/
theorem Service.run_update_content {s : Service} {e : Endpoint} (he : s.client.ready? = some e)
    {r : UpdateRequest} {id : NoteId} (hid : NoteId.read? r.noteId = some id) {text : String}
    (htext : r.content = some text) (t : Session) :
    ∃ sent, (Action.run (s.update r) t).2.requests = t.requests ++ sent ∧
      (∀ request ∈ sent, request.method = .put →
        request = (Stage.content id.text text).request s.client e) ∧
      (r.Acceptable → r.ReachesContent t.server →
        sent.getLast? = some ((Stage.content id.text text).request s.client e)) := by
  rw [show id.text = r.trimmedId from NoteId.text_of_read? hid]
  by_cases h : r.Acceptable
  · have hscript : Follows s.client r.script t _ _ := play_follows t r.script
    have hput := put_of_follows he htext hscript
    obtain ⟨fault, hnone, htype, hrun⟩ | ⟨error, herror, hrun⟩ | ⟨event, hnone, htype, hrun⟩ :=
      run_update_of_acceptable s h t
    · have hsent := play_follows (c := s.client) t r.inquiry
      have hinquiry : Follows s.client r.script t _ _ :=
        hsent.of_prefix (List.prefix_append r.inquiry r.changes)
      rw [hrun]
      refine ⟨_, hinquiry.requests, put_of_follows he htext hinquiry, fun _ hreaches => ?_⟩
      rw [(play_content he htext hreaches).1] at htype
      cases htype
    · rw [hrun]
      exact ⟨_, hscript.requests, hput, fun _ hreaches => (play_content he htext hreaches).2⟩
    · rw [hrun]
      exact ⟨_, hscript.requests, hput, fun _ hreaches => (play_content he htext hreaches).2⟩
  · obtain ⟨fault, hrun⟩ := run_update_of_not_acceptable s h t
    rw [hrun]
    exact ⟨[], (List.append_nil _).symm, by simp, fun hacceptable => absurd hacceptable h⟩

/-! ## Reading content -/

/-- The call that asks for the content of a note. -/
def contentCall (id : String) : Call where
  method := .get
  segments := ["notes", id, "content"]

section
variable {c : Client} {e : Endpoint} {id : NoteId}

theorem Client.noteId_of_read? {text : String} (h : NoteId.read? text = some id) :
    noteId text = pure id := by
  rw [noteId, h]

theorem Client.getNote_of_read? {text : String} (h : NoteId.read? text = some id) :
    c.getNote text = c.getNote id.text := by
  rw [getNote, getNote, noteId_of_read? h, noteId_text]

/-- A note that the server gives is read. -/
theorem run_getNote (he : c.ready? = some e) {text : String} (hid : NoteId.read? text = some id)
    {t : Session} {reply : Reply} {next : Server} (hanswer : t.server.answer = some (reply, next))
    {note : Note} (hnote : acceptNote reply = .ok note) :
    Action.run (ServiceAction.call (c.getNote text)) t =
      (.ok note, t.after next [⟨(Stage.fetch id.text).request c e, reply⟩]) := by
  rw [Client.getNote_of_read? hid, (carriesOut_fetch c id).run, Call.exchange_of_answer he hanswer]
  dsimp only
  rw [hnote]
  rfl

/-- Asking for content is one exchange, and the content is the text of its reply. -/
theorem run_getContent_exchange (c : Client) {text : String} (hid : NoteId.read? text = some id)
    (t : Session) :
    Action.run (ServiceAction.call (c.getContent text)) t =
      match (contentCall id.text).exchange c t.server with
      | .error error => (.error (.ofApi error), t)
      | .ok (x, server) =>
        (((Client.accept x.reply).bind fun reply =>
          .ok (decodeText reply.contentType reply.content)).mapError .ofApi,
        t.after server [x]) := by
  rw [Client.getContent, Client.noteId_of_read? hid, pure_bind]
  exact Client.run_call c (contentCall id.text) (isPlain_note id (by decide)) (fun _ _ => rfl) t

/-- Content that the server gives is decoded. -/
theorem run_getContent (he : c.ready? = some e) {text : String} (hid : NoteId.read? text = some id)
    {t : Session} {reply : Reply} {next : Server} (hanswer : t.server.answer = some (reply, next))
    (hsuccess : reply.isSuccess = true) :
    Action.run (ServiceAction.call (c.getContent text)) t =
      (.ok (decodeText reply.contentType reply.content),
        t.after next [⟨(contentCall id.text).request c e, reply⟩]) := by
  have haccept : Client.accept reply = .ok reply := if_pos hsuccess
  rw [run_getContent_exchange c hid, Call.exchange_of_answer he hanswer]
  dsimp only
  rw [haccept]
  rfl

end

/-- **What reading a note gives.** The note and its content are asked for, one after the other, and
the content is the text of the second reply. -/
theorem Service.run_get_content {s : Service} {e : Endpoint} (he : s.client.ready? = some e)
    {r : GetRequest} (hwanted : r.includeContent = true) {id found : NoteId}
    (hid : NoteId.read? r.noteId = some id) {t : Session} {noteReply contentReply : Reply}
    {after : Server} (hgives : t.server.Gives [noteReply, contentReply] after) {note : Note}
    (hnote : acceptNote noteReply = .ok note) (hfound : NoteId.read? note.noteId = some found)
    (hsuccess : contentReply.isSuccess = true) :
    ∃ event, Action.run (s.get r) t =
      (.ok ⟨note, some (decodeText contentReply.contentType contentReply.content)⟩, {
        server := after
        requests := t.requests ++ [(Stage.fetch id.text).request s.client e,
          (contentCall found.text).request s.client e]
        events := t.events ++ [event] }) := by
  obtain ⟨next, hanswer, next', hanswer', rfl⟩ := hgives
  let fetched : Session :=
    t.after next [⟨(Stage.fetch id.text).request s.client e, noteReply⟩]
  have hread :
      Action.run (ServiceAction.call (s.client.getNote r.noteId)) t = (.ok note, fetched) :=
    run_getNote he hid hanswer hnote
  have hcontent : Action.run (ServiceAction.call (s.client.getContent note.noteId)) fetched =
      (.ok (decodeText contentReply.contentType contentReply.content),
        fetched.after after [⟨(contentCall found.text).request s.client e, contentReply⟩]) :=
    run_getContent he hfound hanswer' hsuccess
  unfold Service.get
  rw [Action.run_bind_ok hread, hwanted, if_pos rfl, map_eq_pure_bind, bind_assoc,
    Action.run_bind_ok hcontent, pure_bind, Action.run_bind]
  dsimp only [fetched]
  rw [Session.after_append, Action.run_report]
  exact ⟨_, rfl⟩

/-! ## Content there and back -/

/-- **Content goes out as it is, and comes back but for a mark at its start.** A change puts exactly
its content, in the last request if the server lets it come to that. Reading a note whose content is
the UTF-8 of a text gives that text without a byte order mark; so it gives the text itself unless
that starts with U+FEFF. Content without a type is in UTF-8, and so is content of a type that says
so: these are the types that matter. A type that names a set which is not known counts as UTF-8 too,
on the assumption that there is no such type. -/
theorem content_roundTrip (s : Service) {e : Endpoint} (he : s.client.ready? = some e) (id : NoteId)
    (text : String) :
    (∀ (r : UpdateRequest) (t : Session), NoteId.read? r.noteId = some id → r.content = some text →
      ∃ sent, (Action.run (s.update r) t).2.requests = t.requests ++ sent ∧
        (∀ request ∈ sent, request.method = .put →
          request = (Stage.content id.text text).request s.client e ∧ request.body = text) ∧
        (r.Acceptable → r.ReachesContent t.server →
          sent.getLast? = some ((Stage.content id.text text).request s.client e))) ∧
    (∀ (r : GetRequest) (t : Session) (noteReply contentReply : Reply) (after : Server)
        (note : Note),
      NoteId.read? r.noteId = some id → r.includeContent = true →
      t.server.Gives [noteReply, contentReply] after → acceptNote noteReply = .ok note →
      NoteId.read? note.noteId = some id → contentReply.isSuccess = true →
      Charset.ofContentType contentReply.contentType = .utf8 →
      contentReply.content = Utf8.encode text →
      ∃ event, Action.run (s.get r) t = (.ok ⟨note, some (withoutMark text)⟩, {
        server := after
        requests := t.requests ++ [(Stage.fetch id.text).request s.client e,
          (contentCall id.text).request s.client e]
        events := t.events ++ [event] })) ∧
    (withoutMark text = text ↔ text.toList.head? ≠ some '\uFEFF') ∧
    (∀ contentType : Option String, (contentType = none ∨
        ∃ kind : String, ';' ∉ kind.toList ∧ contentType = some (kind ++ "; charset=utf-8")) →
      Charset.ofContentType contentType = .utf8) := by
  refine ⟨fun r t hid htext => ?_, ?_, withoutMark_eq_self_iff,
    fun contentType => Charset.ofContentType_utf8⟩
  · obtain ⟨sent, hsent, hput, hlast⟩ := s.run_update_content he hid htext t
    refine ⟨sent, hsent, fun request hrequest hmethod => ?_, hlast⟩
    obtain rfl := hput request hrequest hmethod
    exact ⟨rfl, rfl⟩
  · intro r t noteReply contentReply after note hid hwanted hgives hnote hfound hsuccess hcharset
      hcontent
    rw [← decodeText_encode hcharset, ← hcontent]
    exact s.run_get_content he hwanted hid hgives hnote hfound hsuccess

/-- New content for a note, with a mark at its start. -/
def markUpdate : UpdateRequest where
  noteId := " n1 "
  content := some "\uFEFFabc"

/-- The reply that holds a note. -/
def markNoteReply : Reply :=
  ⟨200, none, Utf8.encode "\x7b\"noteId\":\"n1\"\x7d"⟩

/-- The reply that holds its content. -/
def markContentReply : Reply :=
  ⟨200, none, Utf8.encode "\uFEFFabc"⟩

theorem content_roundTrip_mark :
    ∃ e, deskService.client.ready? = some e ∧ markUpdate.Acceptable ∧
      markUpdate.ReachesContent ⟨[⟨204, none, []⟩, ⟨204, none, []⟩], none⟩ ∧
      (∃ sent, (Action.run (deskService.update markUpdate)
          (.start ⟨[⟨204, none, []⟩, ⟨204, none, []⟩], none⟩)).2.requests = [] ++ sent ∧
        sent.getLast? = some ((Stage.content "n1" "\uFEFFabc").request deskService.client e)) ∧
      ∃ note after event, (Action.run (deskService.get { noteId := "n1" })
        (.start ⟨[markNoteReply, markContentReply], none⟩)) = (.ok ⟨note, some "abc"⟩, {
          server := after
          requests := [] ++ [(Stage.fetch "n1").request deskService.client e,
            (contentCall "n1").request deskService.client e]
          events := [] ++ [event] }) := by
  have hready : deskService.client.ready?.isSome = true := by decide +kernel
  obtain ⟨e, he⟩ := Option.isSome_iff_exists.mp hready
  have hid : NoteId.read? " n1 " = some ⟨"n1", by decide⟩ := by decide +kernel
  have hid' : NoteId.read? "n1" = some ⟨"n1", by decide⟩ := by decide +kernel
  have hacceptable : markUpdate.Acceptable := ⟨by decide +kernel, by decide, by decide⟩
  have hreaches : markUpdate.ReachesContent ⟨[⟨204, none, []⟩, ⟨204, none, []⟩], none⟩ :=
    ⟨[⟨204, none, []⟩], ⟨[⟨204, none, []⟩], none⟩, ⟨_, rfl, rfl⟩, by decide,
      by decide +kernel, rfl, by decide⟩
  have hnote : (acceptNote markNoteReply).toOption.map Note.noteId = some "n1" := by
    decide +kernel
  obtain ⟨hupdate, hget, -⟩ := content_roundTrip deskService he ⟨"n1", by decide⟩ "\uFEFFabc"
  obtain ⟨sent, hsent, -, hlast⟩ := hupdate markUpdate
    (.start ⟨[⟨204, none, []⟩, ⟨204, none, []⟩], none⟩) hid rfl
  obtain ⟨note, hnote, hnoteId⟩ := Option.map_eq_some_iff.mp hnote
  have haccept : acceptNote markNoteReply = .ok note := by
    cases h : acceptNote markNoteReply with
    | error error =>
      rw [h] at hnote
      cases hnote
    | ok found =>
      rw [h] at hnote
      cases hnote
      rfl
  obtain ⟨event, hrun⟩ := hget { noteId := "n1" } (.start ⟨[markNoteReply, markContentReply], none⟩)
    markNoteReply markContentReply ⟨[], none⟩ note hid' rfl ⟨_, rfl, _, rfl, rfl⟩ haccept
    (by rw [hnoteId, hid']) rfl rfl rfl
  exact ⟨e, he, hacceptable, hreaches, ⟨sent, hsent, hlast hacceptable hreaches⟩, note, _, event,
    hrun⟩

/-- Content that does not come back. -/
theorem get_drops_mark :
    markContentReply.content = Utf8.encode "\uFEFFabc" ∧
      Charset.ofContentType markContentReply.contentType = .utf8 ∧
      (Action.run (deskService.get { noteId := "n1" })
        (.start ⟨[markNoteReply, markContentReply], none⟩)).1.toOption.map NoteView.content =
          some (some "abc") ∧
      "abc" ≠ "\uFEFFabc" :=
  ⟨by decide +kernel, rfl, by decide +kernel, by decide⟩

end NoteTools
