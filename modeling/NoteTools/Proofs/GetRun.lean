import NoteTools.Proofs.ContentRoundTrip
import NoteTools.Proofs.ExchangeRuns
import NoteTools.Proofs.RoutedRuns

/-!
# What reading a note comes to

A note is read in two exchanges at most. The first asks for the note of the request. The second asks
for the content, under the id that the note in the first reply has. So whatever the server replies,
what is read concerns the one note of the request exactly when that id is the one of the request,
and a note without a valid id makes the request an invalid one.

Main definitions:

* `GetRequest.contentId?`: the id under which content is asked for after a reply;
* `NoteReading`: the ways in which a note is read;
* `GetRun`: what reading a note does to a session.

Results:

* `Service.run_get`: a note is read in one of these ways;
* `get_follows_reply`: every reading is a `GetRun`.
-/

namespace NoteTools

open Http Text

/-! ## Specification -/

/-- The id under which content is asked for after a reply: if it is wanted, that of the note in the
reply. -/
def GetRequest.contentId? (r : GetRequest) (reply : Reply) : Option NoteId :=
  if r.includeContent then
    match acceptNote reply with
    | .ok note => NoteId.read? note.noteId
    | .error _ => none
  else none

/-- What reading the note of an id does to a session, with the exchanges. -/
structure GetRun (c : Client) (r : GetRequest) (id : NoteId) (t : Session)
    (outcome : Except ServiceError NoteView) (t' : Session) (xs : List Exchange) : Prop
    extends t.Exchanged t' xs where
  /-- Nothing is exchanged only if no request can be built or the server cannot be reached. -/
  silent : xs = [] → c.ready? = none ∨ t.server.answer = none
  /-- The note of the id is asked for first. -/
  first : ∀ x ∈ xs.head?, (Stage.fetch id.text).request? c = some x.request
  /-- The content is asked for once, if it is wanted and the first reply is a note with an id, and
  under that id; nothing else is asked for. -/
  second : ∀ x others, xs = x :: others →
    (others = [] ∧ (r.contentId? x.reply = none ∨ t'.server.answer = none)) ∨
      ∃ y found, others = [y] ∧ r.contentId? x.reply = some found ∧
        (contentCall found.text).request? c = some y.request
  /-- All requests are for the note of the id exactly when content is asked for under that id
  only. -/
  oneNote : c.HasPlainBase →
    ((∀ x ∈ xs, c.Asks (.note id) x.request ∨ c.Asks (.content id) x.request) ↔
      ∀ x y, xs = [x, y] → r.contentId? x.reply = some id)
  /-- The answer has the note of the first reply and, if it is wanted, the text of the second. -/
  served : ∀ view, outcome = .ok view ↔ ∃ x others, xs = x :: others ∧
    acceptNote x.reply = .ok view.note ∧
      (r.includeContent = false ∧ view.content = none ∨ ∃ y, others = [y] ∧
        y.reply.isSuccess = true ∧
        view.content = some (decodeText y.reply.contentType y.reply.content))
  /-- The request is an invalid one exactly when content is wanted and the first reply is a note
  without a valid id; the fault is that id. -/
  invalid : ∀ fault, outcome = .error (.invalidRequest fault) ↔ r.includeContent = true ∧
    ∃ x note, xs = [x] ∧ acceptNote x.reply = .ok note ∧ NoteId.read? note.noteId = none ∧
      fault = .badNoteId note.noteId
  /-- There is no such note exactly when the last reply says so. -/
  notFound : (∃ message, outcome = .error (.notFound message)) ↔
    ∃ x ∈ xs.getLast?, x.reply.status = 404
  /-- No date is at fault; so all other errors are failures of the server. -/
  dateless : ∀ e, outcome ≠ .error (.date e)

/-! ## The ways of reading a note -/

/-- The first exchange gives a note. -/
structure GivesNote (c : Client) (id : NoteId) (server : Server) (x : Exchange) (next : Server)
    (note : Note) : Prop where
  exchanged : (Stage.fetch id.text).exchange c server = .ok (x, next)
  accepted : acceptNote x.reply = .ok note

/-- The ways in which a note is read: what comes of it, the exchanges, and the server after them. -/
inductive NoteReading (c : Client) (r : GetRequest) (id : NoteId) (server : Server) :
    Except ServiceError NoteView → List Exchange → Server → Prop
  /-- No reply can be had. -/
  | unanswered {error : ApiError}
      (hfetch : (Stage.fetch id.text).exchange c server = .error error) :
      NoteReading c r id server (.error (.ofApi error)) [] server
  /-- The reply is no note. -/
  | noNote {x : Exchange} {next : Server} {error : ApiError}
      (hfetch : (Stage.fetch id.text).exchange c server = .ok (x, next))
      (hnote : acceptNote x.reply = .error error) :
      NoteReading c r id server (.error (.ofApi error)) [x] next
  /-- The note is all that is wanted. -/
  | noteOnly {x : Exchange} {next : Server} {note : Note}
      (hnote : GivesNote c id server x next note) (hwanted : r.includeContent = false) :
      NoteReading c r id server (.ok ⟨note, none⟩) [x] next
  /-- The note has no valid id. -/
  | nameless {x : Exchange} {next : Server} {note : Note}
      (hnote : GivesNote c id server x next note) (hwanted : r.includeContent = true)
      (hfound : NoteId.read? note.noteId = none) :
      NoteReading c r id server (.error (.invalidRequest (.badNoteId note.noteId))) [x] next
  /-- No reply can be had to the second request. -/
  | noContent {x : Exchange} {next : Server} {note : Note} {found : NoteId} {error : ApiError}
      (hnote : GivesNote c id server x next note) (hwanted : r.includeContent = true)
      (hfound : NoteId.read? note.noteId = some found)
      (hcontent : (contentCall found.text).exchange c next = .error error) :
      NoteReading c r id server (.error (.ofApi error)) [x] next
  /-- The content is refused. -/
  | refused {x y : Exchange} {next last : Server} {note : Note} {found : NoteId}
      (hnote : GivesNote c id server x next note) (hwanted : r.includeContent = true)
      (hfound : NoteId.read? note.noteId = some found)
      (hcontent : (contentCall found.text).exchange c next = .ok (y, last))
      (hfailed : y.reply.isSuccess = false) :
      NoteReading c r id server (.error (.ofApi (refusal y.reply))) [x, y] last
  /-- The note and its content are there. -/
  | whole {x y : Exchange} {next last : Server} {note : Note} {found : NoteId}
      (hnote : GivesNote c id server x next note) (hwanted : r.includeContent = true)
      (hfound : NoteId.read? note.noteId = some found)
      (hcontent : (contentCall found.text).exchange c next = .ok (y, last))
      (hsuccess : y.reply.isSuccess = true) :
      NoteReading c r id server
        (.ok ⟨note, some (decodeText y.reply.contentType y.reply.content)⟩) [x, y] last

/-- **A note is read** in one of these ways. -/
theorem Service.run_get (s : Service) {r : GetRequest} {id : NoteId}
    (hid : NoteId.read? r.noteId = some id) (t : Session) :
    ∃ xs, NoteReading s.client r id t.server (Action.run (s.get r) t).1 xs
        (Action.run (s.get r) t).2.server ∧
      (Action.run (s.get r) t).2.requests = t.requests ++ xs.map Exchange.request := by
  have hrun := (carriesOut_fetch s.client id).run t
  rw [← Client.getNote_of_read? hid] at hrun
  rw [get, Action.run_bind, hrun]
  cases hfetch : (Stage.fetch id.text).exchange s.client t.server with
  | error error => exact ⟨[], .unanswered hfetch, (List.append_nil _).symm⟩
  | ok answer =>
    obtain ⟨x, next⟩ := answer
    dsimp only
    cases haccept : acceptNote x.reply with
    | error error => exact ⟨[x], .noNote hfetch haccept, rfl⟩
    | ok note =>
      have hnote : GivesNote s.client id t.server x next note := ⟨hfetch, haccept⟩
      cases hwanted : r.includeContent with
      | false => exact ⟨[x], .noteOnly hnote hwanted, rfl⟩
      | true =>
        dsimp only [Except.mapError]
        rw [if_pos rfl, map_eq_pure_bind, bind_assoc, Action.run_bind]
        cases hfound : NoteId.read? note.noteId with
        | none =>
          rw [Client.getContent, Client.noteId, hfound]
          exact ⟨[x], .nameless hnote hwanted hfound, rfl⟩
        | some found =>
          rw [run_getContent_exchange s.client hfound,
            show (t.after next [x]).server = next from rfl]
          cases hcontent : (contentCall found.text).exchange s.client next with
          | error error => exact ⟨[x], .noContent hnote hwanted hfound hcontent, rfl⟩
          | ok answer =>
            obtain ⟨y, last⟩ := answer
            dsimp only
            rw [Client.accept]
            cases hsuccess : y.reply.isSuccess with
            | false =>
              exact ⟨[x, y], .refused hnote hwanted hfound hcontent hsuccess,
                List.append_assoc _ _ _⟩
            | true =>
              exact ⟨[x, y], .whole hnote hwanted hfound hcontent hsuccess,
                List.append_assoc _ _ _⟩

/-! ## Replies that are notes -/

section
variable {reply : Reply}

theorem isSuccess_of_acceptNote {note : Note} (h : acceptNote reply = .ok note) :
    reply.isSuccess = true := by
  rw [acceptNote, Client.accept] at h
  cases hsuccess : reply.isSuccess with
  | true => rfl
  | false =>
    rw [hsuccess] at h
    cases h

theorem failsOn_of_acceptNote {error : ApiError} (h : acceptNote reply = .error error) :
    FailsOn reply (.ofApi error) :=
  failsOn_of_decoded h

end

/-! ## What every way has in common -/

theorem GetRequest.contentId?_of_accepted {r : GetRequest} {reply : Reply} {note : Note}
    (hwanted : r.includeContent = true) (hnote : acceptNote reply = .ok note) :
    r.contentId? reply = NoteId.read? note.noteId := by
  rw [contentId?, if_pos hwanted, hnote]

namespace NoteReading

variable {c : Client} {r : GetRequest} {id : NoteId} {server last : Server}
  {outcome : Except ServiceError NoteView} {xs : List Exchange}

/-- The server gives the replies of a reading. -/
theorem gives (h : NoteReading c r id server outcome xs last) :
    server.Gives (xs.map Exchange.reply) last := by
  have hreply {call : Call} {server next : Server} {x : Exchange}
      (h : call.exchange c server = .ok (x, next)) : server.answer = some (x.reply, next) :=
    (Call.exchange_eq_ok h).2
  cases h with
  | unanswered hfetch => rfl
  | noNote hfetch hnote => exact ⟨_, hreply hfetch, rfl⟩
  | noteOnly hnote hwanted => exact ⟨_, hreply hnote.exchanged, rfl⟩
  | nameless hnote hwanted hfound => exact ⟨_, hreply hnote.exchanged, rfl⟩
  | noContent hnote hwanted hfound hcontent => exact ⟨_, hreply hnote.exchanged, rfl⟩
  | refused hnote hwanted hfound hcontent hfailed =>
    exact ⟨_, hreply hnote.exchanged, _, hreply hcontent, rfl⟩
  | whole hnote hwanted hfound hcontent hsuccess =>
    exact ⟨_, hreply hnote.exchanged, _, hreply hcontent, rfl⟩

theorem served_iff (h : NoteReading c r id server outcome xs last) (view : NoteView) :
    outcome = .ok view ↔ ∃ x others, xs = x :: others ∧ acceptNote x.reply = .ok view.note ∧
      (r.includeContent = false ∧ view.content = none ∨ ∃ y, others = [y] ∧
        y.reply.isSuccess = true ∧
        view.content = some (decodeText y.reply.contentType y.reply.content)) := by
  obtain ⟨note', content⟩ := view
  cases h with
  | unanswered hfetch => simp
  | noNote hfetch hnote => simp [hnote]
  | noteOnly hnote hwanted => simp [hnote.accepted, hwanted, @eq_comm _ none]
  | nameless hnote hwanted hfound => simp [hwanted]
  | noContent hnote hwanted hfound hcontent => simp [hwanted]
  | refused hnote hwanted hfound hcontent hfailed => simp [hwanted, hfailed]
  | whole hnote hwanted hfound hcontent hsuccess =>
    simp [hnote.accepted, hwanted, hsuccess, @eq_comm _ (some _)]

theorem invalid_iff (h : NoteReading c r id server outcome xs last) (fault : RequestFault) :
    outcome = .error (.invalidRequest fault) ↔ r.includeContent = true ∧
      ∃ x note, xs = [x] ∧ acceptNote x.reply = .ok note ∧ NoteId.read? note.noteId = none ∧
        fault = .badNoteId note.noteId := by
  cases h with
  | unanswered hfetch =>
    obtain ⟨cause, hcause⟩ := Call.serverFailure_of_exchange hfetch
    simp [hcause]
  | noNote hfetch hnote => simp [(failsOn_of_acceptNote hnote).ne_invalidRequest fault, hnote]
  | noteOnly hnote hwanted => simp [hwanted]
  | nameless hnote hwanted hfound => simp [hnote.accepted, hwanted, hfound, eq_comm]
  | noContent hnote hwanted hfound hcontent =>
    obtain ⟨cause, hcause⟩ := Call.serverFailure_of_exchange hcontent
    simp [hcause, hnote.accepted, hfound]
  | refused hnote hwanted hfound hcontent hfailed =>
    simp [(failsOn_refusal _).ne_invalidRequest fault]
  | whole hnote hwanted hfound hcontent hsuccess => simp

theorem notFound_iff (h : NoteReading c r id server outcome xs last) :
    (∃ message, outcome = .error (.notFound message)) ↔
      ∃ x ∈ xs.getLast?, x.reply.status = 404 := by
  have hfound {x : Exchange} {next : Server} {note : Note} (h : GivesNote c id server x next note) :
      x.reply.status ≠ 404 := status_ne_of_isSuccess (isSuccess_of_acceptNote h.accepted)
  cases h with
  | unanswered hfetch =>
    obtain ⟨cause, hcause⟩ := Call.serverFailure_of_exchange hfetch
    simp [hcause]
  | noNote hfetch hnote => simpa using (failsOn_of_acceptNote hnote).notFound_iff
  | noteOnly hnote hwanted => simp [hfound hnote]
  | nameless hnote hwanted hread => simp [hfound hnote]
  | noContent hnote hwanted hread hcontent =>
    obtain ⟨cause, hcause⟩ := Call.serverFailure_of_exchange hcontent
    simp [hcause, hfound hnote]
  | refused hnote hwanted hread hcontent hfailed => simpa using (failsOn_refusal _).notFound_iff
  | whole hnote hwanted hread hcontent hsuccess => simp [status_ne_of_isSuccess hsuccess]

theorem ne_date (h : NoteReading c r id server outcome xs last) (e : DateError) :
    outcome ≠ .error (.date e) := by
  cases h with
  | unanswered hfetch =>
    obtain ⟨cause, hcause⟩ := Call.serverFailure_of_exchange hfetch
    simp [hcause]
  | noNote hfetch hnote => simp [(failsOn_of_acceptNote hnote).ne_date e]
  | noContent hnote hwanted hread hcontent =>
    obtain ⟨cause, hcause⟩ := Call.serverFailure_of_exchange hcontent
    simp [hcause]
  | refused hnote hwanted hread hcontent hfailed => simp [(failsOn_refusal _).ne_date e]
  | noteOnly | nameless | whole => rintro ⟨⟩

theorem silent (h : NoteReading c r id server outcome xs last) (hxs : xs = []) :
    c.ready? = none ∨ server.answer = none := by
  cases h with
  | unanswered hfetch => exact (Call.exchange_eq_error hfetch).1
  | noNote | noteOnly | nameless | noContent | refused | whole => cases hxs

theorem first (h : NoteReading c r id server outcome xs last) :
    ∀ x ∈ xs.head?, (Stage.fetch id.text).request? c = some x.request := by
  intro x hx
  cases h with
  | unanswered hfetch => cases hx
  | noNote hfetch hnote => cases hx; exact (Call.exchange_eq_ok hfetch).1
  | noteOnly hnote | nameless hnote | noContent hnote | refused hnote | whole hnote =>
    cases hx
    exact (Call.exchange_eq_ok hnote.exchanged).1

theorem second (h : NoteReading c r id server outcome xs last) :
    ∀ x others, xs = x :: others →
      (others = [] ∧ (r.contentId? x.reply = none ∨ last.answer = none)) ∨
        ∃ y found, others = [y] ∧ r.contentId? x.reply = some found ∧
          (contentCall found.text).request? c = some y.request := by
  intro x others hxs
  have hready {x : Exchange} {next : Server} {call : Call}
      (h : call.exchange c server = .ok (x, next)) : c.ready? ≠ none := by
    obtain ⟨e, he, -⟩ := Option.map_eq_some_iff.mp (Call.exchange_eq_ok h).1
    rw [he]
    rintro ⟨⟩
  cases h with
  | unanswered hfetch => cases hxs
  | noNote hfetch hnote =>
    cases hxs
    refine .inl ⟨rfl, .inl ?_⟩
    rw [GetRequest.contentId?, hnote, ite_self]
  | noteOnly hnote hwanted =>
    cases hxs
    refine .inl ⟨rfl, .inl ?_⟩
    rw [GetRequest.contentId?, hwanted, if_neg Bool.false_ne_true]
  | nameless hnote hwanted hfound =>
    cases hxs
    exact .inl ⟨rfl, .inl ((r.contentId?_of_accepted hwanted hnote.accepted).trans hfound)⟩
  | noContent hnote hwanted hfound hcontent =>
    cases hxs
    exact .inl ⟨rfl, .inr ((Call.exchange_eq_error hcontent).1.resolve_left
      (hready hnote.exchanged))⟩
  | refused hnote hwanted hfound hcontent | whole hnote hwanted hfound hcontent =>
    cases hxs
    exact .inr ⟨_, _, rfl, (r.contentId?_of_accepted hwanted hnote.accepted).trans hfound,
      (Call.exchange_eq_ok hcontent).1⟩

end NoteReading

/-! ## Every reading -/

section
variable {c : Client} {r : GetRequest} {id : NoteId} {xs : List Exchange}

theorem asks_of_fetch (hbase : c.HasPlainBase) {request : Request}
    (h : (Stage.fetch id.text).request? c = some request) : c.Asks (.note id) request := by
  obtain ⟨e, he, rfl⟩ := Option.map_eq_some_iff.mp h
  exact Client.asks_of_call hbase he (Client.get_mem_methods id) rfl rfl

theorem asks_of_contentCall (hbase : c.HasPlainBase) {request : Request}
    (h : (contentCall id.text).request? c = some request) : c.Asks (.content id) request := by
  obtain ⟨e, he, rfl⟩ := Option.map_eq_some_iff.mp h
  exact Client.asks_of_call hbase he List.mem_cons_self rfl rfl

/-- Requests for a note and then, under some id, for content concern one note exactly when that id
is the one of the note. -/
theorem oneNote_iff (hbase : c.HasPlainBase)
    (hfirst : ∀ x ∈ xs.head?, (Stage.fetch id.text).request? c = some x.request)
    (hsecond : ∀ x others, xs = x :: others → others = [] ∨
      ∃ y found, others = [y] ∧ r.contentId? x.reply = some found ∧
        (contentCall found.text).request? c = some y.request) :
    (∀ x ∈ xs, c.Asks (.note id) x.request ∨ c.Asks (.content id) x.request) ↔
      ∀ x y, xs = [x, y] → r.contentId? x.reply = some id := by
  constructor
  · rintro hasks x y rfl
    obtain hnil | ⟨y', found, hy, hfound, hrequest⟩ := hsecond x [y] rfl
    · cases hnil
    cases hy
    have hcontent := asks_of_contentCall hbase hrequest
    obtain h | h := hasks y (List.mem_cons_of_mem x (List.mem_singleton_self y))
    · cases hcontent.unique h
    · cases hcontent.unique h
      exact hfound
  · intro hid x hx
    cases xs with
    | nil => cases hx
    | cons head others =>
      obtain rfl | hx := List.mem_cons.mp hx
      · exact .inl (asks_of_fetch hbase (hfirst x rfl))
      · obtain rfl | ⟨y, found, rfl, hfound, hrequest⟩ := hsecond head others rfl
        · cases hx
        obtain rfl := List.mem_singleton.mp hx
        rw [hid head x rfl] at hfound
        cases hfound
        exact .inr (asks_of_contentCall hbase hrequest)

end

/-- **A reading follows the first reply.** Whatever the server replies, the note of the trimmed id
is asked for, and then, if it is wanted, the content of the note that the reply gives. All requests
are for one note exactly when that is the note asked for, and the request is an invalid one exactly
when that note has no valid id; every other bad reply is a note that is not there or a failure of
the server. -/
theorem get_follows_reply (s : Service) {r : GetRequest} (hid : NoteId.Valid (trim r.noteId))
    (t : Session) :
    ∃ xs, GetRun s.client r ⟨trim r.noteId, hid⟩ t (Action.run (s.get r) t).1
      (Action.run (s.get r) t).2 xs := by
  obtain ⟨xs, hreading, hrequests⟩ := s.run_get (dif_pos hid) t
  exact ⟨xs, {
    requests := hrequests
    replies := hreading.gives
    silent := hreading.silent
    first := hreading.first
    second := hreading.second
    oneNote := fun hbase => oneNote_iff hbase hreading.first fun x others hxs =>
      (hreading.second x others hxs).imp_left And.left
    served := hreading.served_iff
    invalid := hreading.invalid_iff
    notFound := hreading.notFound_iff
    dateless := hreading.ne_date }⟩

/-- A server with a note of another id and its content. -/
def strayServer : Server :=
  ⟨[⟨200, none, Utf8.encode "\x7b\"noteId\":\"n2\"\x7d"⟩, ⟨200, none, Utf8.encode "abc"⟩],
    none⟩

/-- A server with a note that has no id. -/
def namelessServer : Server :=
  ⟨[⟨200, none, Utf8.encode "\x7b\x7d"⟩], none⟩

theorem get_follows_reply_desk :
    NoteId.Valid (trim " n1 ") ∧
      (Action.run (deskService.get { noteId := " n1 " }) (.start strayServer)).2.requests.map
        Request.target = ["/etapi/notes/n1", "/etapi/notes/n2/content"] ∧
      ∃ xs, GetRun deskService.client { noteId := " n1 " } ⟨trim " n1 ", by decide +kernel⟩
        (.start strayServer)
        (Action.run (deskService.get { noteId := " n1 " }) (.start strayServer)).1
        (Action.run (deskService.get { noteId := " n1 " }) (.start strayServer)).2 xs :=
  ⟨by decide +kernel, by decide +kernel,
    get_follows_reply deskService (r := { noteId := " n1 " }) (by decide +kernel)
      (.start strayServer)⟩

/-- A reply can lead a reading to another note, and it can make the request an invalid one. -/
theorem get_strays :
    NoteId.Valid (trim "n1") ∧ deskService.client.HasPlainBase ∧
      (Action.run (deskService.get { noteId := "n1" }) (.start strayServer)).2.requests.map
        Request.target = ["/etapi/notes/n1", "/etapi/notes/n2/content"] ∧
      (Action.run (deskService.get { noteId := "n1" }) (.start namelessServer)).1 =
        .error (.invalidRequest (.badNoteId "")) :=
  ⟨by decide +kernel, by decide +kernel, by decide +kernel, by decide +kernel⟩

end NoteTools
