import NoteTools.Proofs.ContentRoundTrip
import NoteTools.Proofs.CreateRun

/-!
# What replies make of a call

A call of the service sends its requests one after another, and goes on only while the replies are
as they have to be: a success, with a body of the expected type where one is expected. The first
other reply ends the call and decides its error. The note is missing if the status says so; any
other status that is not a success, and a body that is not as expected, are failures of the server.

Main definitions:

* `Stage.Known`: the stages of the service, and what is expected of their replies;
* `CallRun`: what a call of the service does to a session;
* `Answered`, `Answers`: actions that end with the first failing reply.

Results:

* `Answers.bind`, `answers_of_carriesOut`: actions after one another, and one exchange;
* `ServiceCall.answers_perform`: every call of the service is such an action;
* `calls_classify_replies`: every call is a `CallRun`, and every refusal says one thing.
-/

namespace NoteTools

open Http Text

/-! ## Specification -/

namespace Stage

/-- Notes are searched for. -/
def search (p : SearchParams) : Stage :=
  { p.call with reject? := bodyFault? SearchResults.decode }

/-- The content of a note is read. -/
def read (id : String) : Stage :=
  { contentCall id with }

/-- A note is created. -/
def create (n : NewNote) : Stage :=
  { n.call with reject? := bodyFault? PlacedNote.decode }

/-- A note is deleted. -/
def delete (id : String) : Stage where
  method := .delete
  segments := ["notes", id]

/-- The server is asked what it is. -/
def describe : Stage where
  method := .get
  segments := ["app-info"]
  reject? := bodyFault? AppInfo.decode

/-- The stages of the service, each with what is expected of a reply that is a success. -/
inductive Known : Stage → (Reply → Prop) → Prop
  | search (p : SearchParams) : Known (.search p) (HasBody SearchResults.decode)
  | fetch (id : NoteId) : Known (.fetch id.text) (HasBody Note.decode)
  | read (id : NoteId) : Known (.read id.text) fun _ => True
  | create (n : NewNote) : Known (.create n) (HasBody PlacedNote.decode)
  | patch (id : NoteId) (p : NotePatch) : Known (.patch id.text p) (HasBody Note.decode)
  | revision (id : NoteId) : Known (.revision id.text) fun _ => True
  | content (id : NoteId) (text : String) : Known (.content id.text text) fun _ => True
  | delete (id : NoteId) : Known (.delete id.text) fun _ => True
  | describe : Known .describe (HasBody AppInfo.decode)

end Stage

/-- What a call of the service does to a session, with the stages that were played. -/
structure CallRun {α : Type} (c : Client) (t : Session) (outcome : Except ServiceError α)
    (t' : Session) (played : List Played) : Prop
    extends t.Exchanged t' (played.map Played.exchange) where
  /-- Each request is that of its stage, and the stage is one of the service. -/
  built : ∀ x ∈ played, x.stage.request? c = some x.request ∧ ∃ expected, x.stage.Known expected
  /-- Nothing is sent after a reply that is not a success, or not as expected. -/
  stops : ∀ x ∈ played.dropLast, (200 ≤ x.reply.status ∧ x.reply.status ≤ 299) ∧
    ∀ expected, x.stage.Known expected → expected x.reply
  /-- The note is missing exactly when the last reply says so, in these words. -/
  notFound : ∀ message, outcome = .error (.notFound message) ↔
    ∃ x ∈ played.getLast?, x.reply.status = 404 ∧ ∃ code, x.reply.Refuses code message
  /-- Any other reply that is not a success is a failure of the server, in these words. -/
  refused : ∀ x ∈ played.getLast?, ¬(200 ≤ x.reply.status ∧ x.reply.status ≤ 299) →
    x.reply.status ≠ 404 → ∀ code message, x.reply.Refuses code message →
      ∃ cause, outcome = .error (.serverFailure cause) ∧
        (ServiceError.serverFailure cause).message = "Trilium error: ETAPI returned " ++
          toString x.reply.status ++ " " ++ code ++ ": " ++ message
  /-- A success that is not as expected is a failure of the server. -/
  garbled : ∀ x ∈ played.getLast?, 200 ≤ x.reply.status ∧ x.reply.status ≤ 299 →
    ∀ expected, x.stage.Known expected → ¬expected x.reply →
      ∃ e, outcome = .error (.serverFailure (.undecodable e))
  /-- Nothing is exchanged only if the request is refused before that, or no request can be built,
  or the server gives no reply. -/
  silent : played = [] →
    (∃ fault, outcome = .error (.invalidRequest fault)) ∨ (∃ e, outcome = .error (.date e)) ∨
      c.ready? = none ∨ t.server.answer = none

/-! ## Replies to stages -/

namespace Stage.Known

variable {stage : Stage} {expected : Reply → Prop}

/-- A stage expects nothing of a success, or a body of some type. -/
theorem cases_body (h : stage.Known expected) :
    (stage.reject? = (fun _ => none) ∧ expected = fun _ => True) ∨
      ∃ (α : Type) (d : Json.Decoder α), stage.reject? = bodyFault? d ∧ expected = HasBody d := by
  cases h with
  | read | revision | content | delete => exact .inl ⟨rfl, rfl⟩
  | search | create | describe => exact .inr ⟨_, _, rfl, rfl⟩
  | fetch | patch => exact .inr ⟨_, _, noteFault?_eq, rfl⟩

theorem reject?_eq_none_iff (h : stage.Known expected) (reply : Reply) :
    stage.reject? reply = none ↔ expected reply := by
  obtain ⟨hreject, rfl⟩ | ⟨α, d, hreject, rfl⟩ := h.cases_body
  · simp [hreject]
  · rw [hreject, bodyFault?_eq_none_iff]

theorem undecodable_of_reject? (h : stage.Known expected) {reply : Reply} {error : ApiError}
    (herror : stage.reject? reply = some error) : ∃ e, error = .undecodable e := by
  obtain ⟨hreject, -⟩ | ⟨α, d, hreject, -⟩ := h.cases_body
  · rw [hreject] at herror
    cases herror
  · rw [hreject] at herror
    exact bodyFault?_eq_some herror

end Stage.Known

theorem isSuccess_iff {reply : Reply} :
    reply.isSuccess = true ↔ 200 ≤ reply.status ∧ reply.status ≤ 299 := by
  rw [Reply.isSuccess, Bool.and_eq_true, decide_eq_true_eq, decide_eq_true_eq]
  exact and_congr_right fun _ => Nat.lt_succ_iff

namespace Played

variable {x : Played} {error : ApiError}

theorem isSuccess_of_failure?_eq_none (h : x.failure? = none) : x.reply.isSuccess = true := by
  rw [failure?, Stage.failure?] at h
  split at h
  · assumption
  · cases h

/-- A reply that is as it has to be is a success, and what was expected. -/
theorem served (h : x.failure? = none) :
    (200 ≤ x.reply.status ∧ x.reply.status ≤ 299) ∧
      ∀ expected, x.stage.Known expected → expected x.reply := by
  have hsuccess := isSuccess_of_failure?_eq_none h
  rw [failure?, Stage.failure?, if_pos hsuccess] at h
  exact ⟨isSuccess_iff.mp hsuccess, fun expected hknown =>
    (hknown.reject?_eq_none_iff x.reply).mp h⟩

theorem failure?_of_refused (hstatus : ¬(200 ≤ x.reply.status ∧ x.reply.status ≤ 299)) :
    x.failure? = some (refusal x.reply) := by
  rw [failure?, Stage.failure?, if_neg (mt isSuccess_iff.mp hstatus)]

theorem failure?_of_success (hstatus : 200 ≤ x.reply.status ∧ x.reply.status ≤ 299) :
    x.failure? = x.stage.reject? x.reply := by
  rw [failure?, Stage.failure?, if_pos (isSuccess_iff.mpr hstatus)]

end Played

/-! ## Actions that end with the first failing reply -/

/-- The request itself is refused, whatever the server says. -/
def ServiceError.IsRefusal (e : ServiceError) : Prop :=
  (∃ fault, e = .invalidRequest fault) ∨ ∃ date, e = .date date

theorem ServiceError.not_isRefusal_notFound (message : String) : ¬(notFound message).IsRefusal := by
  rintro (⟨fault, ⟨⟩⟩ | ⟨date, ⟨⟩⟩)

/-- How a list of exchanges ends: every reply is as it has to be, or the last of them is not and
decides the error. -/
inductive Settled {α : Type} (outcome : Except ServiceError α) : List Played → Prop
  | served {played : List Played} : (∀ x ∈ played, x.failure? = none) →
    (∀ message, outcome ≠ .error (.notFound message)) → Settled outcome played
  | failed {passed : List Played} {x : Played} {error : ApiError} :
    (∀ y ∈ passed, y.failure? = none) → x.failure? = some error →
    outcome = .error (.ofApi error) → Settled outcome (passed ++ [x])

namespace Settled

variable {α β : Type} {played more : List Played}

/-- With a value, no reply has failed. -/
theorem served_of_ok {x : α} (h : Settled (.ok x) played) : ∀ y ∈ played, y.failure? = none := by
  cases h with
  | served hall _ => exact hall
  | failed _ _ houtcome => cases houtcome

/-- An error ends exchanges whatever value it comes instead of. -/
theorem of_error {e : ServiceError} (h : Settled (.error e : Except ServiceError α) played) :
    Settled (.error e : Except ServiceError β) played := by
  cases h with
  | served hall hfound =>
    refine .served hall fun message heq => hfound message ?_
    rw [Except.error.inj heq]
  | failed hpassed hfailure houtcome =>
    refine .failed hpassed hfailure ?_
    rw [Except.error.inj houtcome]

/-- Exchanges go on behind replies that are as they have to be. -/
theorem append {outcome : Except ServiceError α} (hall : ∀ y ∈ played, y.failure? = none)
    (h : Settled outcome more) : Settled outcome (played ++ more) := by
  cases h with
  | served hall' hfound =>
    refine .served (fun y hy => ?_) hfound
    exact (List.mem_append.mp hy).elim (hall y) (hall' y)
  | failed hpassed hfailure houtcome =>
    rw [← List.append_assoc]
    refine .failed (fun y hy => ?_) hfailure houtcome
    exact (List.mem_append.mp hy).elim (hall y) (hpassed y)

end Settled

/-- What an action that ends with the first failing reply does to a session. A loud action gives no
value before it has exchanged something. -/
structure Answered {α : Type} (loud : Prop) (c : Client) (t : Session)
    (outcome : Except ServiceError α) (t' : Session) (played : List Played) : Prop
    extends t.Exchanged t' (played.map Played.exchange) where
  built : ∀ x ∈ played, x.stage.request? c = some x.request ∧ ∃ expected, x.stage.Known expected
  settled : Settled outcome played
  heard : loud → ∀ x, outcome = .ok x → played ≠ []
  unheard : played = [] → ∀ e, outcome = .error e →
    e.IsRefusal ∨ c.ready? = none ∨ t.server.answer = none

/-- An action ends with the first failing reply. -/
def Answers {α : Type} (loud : Prop) (c : Client) (a : ServiceAction α) : Prop :=
  ∀ t, ∃ played, Answered loud c t (Action.run a t).1 (Action.run a t).2 played

section
variable {c : Client} {α β : Type} {loud loud' : Prop}

theorem Answers.mono {a : ServiceAction α} (ha : Answers loud c a) (h : loud' → loud) :
    Answers loud' c a := by
  intro t
  obtain ⟨played, hanswered⟩ := ha t
  exact ⟨played, { hanswered with heard := fun hloud => hanswered.heard (h hloud) }⟩

theorem Answers.quiet {a : ServiceAction α} (ha : Answers loud c a) : Answers False c a :=
  ha.mono False.elim

/-- An action that exchanges nothing, and fails only by refusing the request. -/
theorem answers_of_silent {a : ServiceAction α}
    (hserver : ∀ t, (Action.run a t).2.server = t.server)
    (hrequests : ∀ t, (Action.run a t).2.requests = t.requests)
    (hrefuses : ∀ t e, (Action.run a t).1 = .error e → e.IsRefusal) : Answers False c a :=
  fun t => ⟨[], {
    toExchanged := .nil (hserver t) (hrequests t)
    built := by simp
    settled := .served (by simp) fun message heq =>
      ServiceError.not_isRefusal_notFound message (hrefuses t _ heq)
    heard := False.elim
    unheard := fun _ e he => .inl (hrefuses t e he) }⟩

/-- An action that refuses the request. -/
theorem answers_of_refusal {a : ServiceAction α} {e : ServiceError} (he : e.IsRefusal)
    (hrun : ∀ t, Action.run a t = (.error e, t)) : Answers loud c a := by
  have hsilent : Answers False c a := answers_of_silent (fun t => by rw [hrun])
    (fun t => by rw [hrun]) fun t e' he' => by
      rw [hrun] at he'
      rwa [← Except.error.inj he']
  intro t
  obtain ⟨played, hplayed⟩ := hsilent t
  refine ⟨played, { hplayed with heard := fun _ x hx => ?_ }⟩
  rw [hrun] at hx
  cases hx

theorem answers_pure (x : α) : Answers False c (pure x : ServiceAction α) :=
  answers_of_silent (fun _ => rfl) (fun _ => rfl) fun _ _ => nofun

theorem answers_report (e : Event) : Answers False c (Action.report e : ServiceAction Unit) :=
  answers_of_silent (fun _ => rfl) (fun _ => rfl) fun _ _ => nofun

theorem answers_ofExcept {r : Except ServiceError α} (h : ∀ e, r = .error e → e.IsRefusal) :
    Answers False c (Action.ofExcept r) :=
  answers_of_silent (fun _ => rfl) (fun _ => rfl) fun _ => h

/-- Actions after one another end with the first failing reply of either, and are loud if one of
them is. -/
theorem Answers.bind {a : ServiceAction α} {f : α → ServiceAction β} (ha : Answers loud c a)
    (hf : ∀ x, Answers loud' c (f x)) : Answers (loud ∨ loud') c (a >>= f) := by
  intro t
  obtain ⟨played, hplayed⟩ := ha t
  rw [Action.run_bind]
  cases hrun : Action.run a t with
  | mk result u =>
    rw [hrun] at hplayed
    cases result with
    | error e =>
      exact ⟨played, {
        toExchanged := hplayed.toExchanged
        built := hplayed.built
        settled := hplayed.settled.of_error
        heard := fun _ => nofun
        unheard := fun hnil e' he => hplayed.unheard hnil e' (by rw [Except.error.inj he]) }⟩
    | ok x =>
      obtain ⟨more, hmore⟩ := hf x u
      refine ⟨played ++ more, {
        toExchanged := ?_
        built := fun y hy => (List.mem_append.mp hy).elim (hplayed.built y) (hmore.built y)
        settled := hmore.settled.append hplayed.settled.served_of_ok
        heard := ?_
        unheard := ?_ }⟩
      · rw [List.map_append]
        exact hplayed.toExchanged.append hmore.toExchanged
      · rintro (hloud | hloud) y hy hnil
        · exact hplayed.heard hloud x rfl (List.append_eq_nil_iff.mp hnil).1
        · exact hmore.heard hloud y hy (List.append_eq_nil_iff.mp hnil).2
      · intro hnil e he
        obtain ⟨rfl, rfl⟩ := List.append_eq_nil_iff.mp hnil
        -- Nothing has been exchanged up to here, so the server is the same.
        have hserver : u.server = t.server := hplayed.replies
        rw [← hserver]
        exact hmore.unheard rfl e he

theorem Answers.bind_left {a : ServiceAction α} {f : α → ServiceAction β} (ha : Answers loud c a)
    (hf : ∀ x, Answers False c (f x)) : Answers loud c (a >>= f) :=
  (ha.bind hf).mono .inl

theorem Answers.bind_right {a : ServiceAction α} {f : α → ServiceAction β} (ha : Answers False c a)
    (hf : ∀ x, Answers loud c (f x)) : Answers loud c (a >>= f) :=
  (ha.bind hf).mono .inr

theorem Answers.map {a : ServiceAction α} (ha : Answers loud c a) (f : α → β) :
    Answers loud c (f <$> a) := by
  rw [← bind_pure_comp]
  exact ha.bind_left fun x => answers_pure (f x)

/-- One exchange ends with its reply if that fails. -/
theorem answers_of_carriesOut {stage : Stage} {expected : Reply → Prop} {a : ServiceAction α}
    {value : Reply → Except ApiError α} (h : CarriesOut c stage a value)
    (hknown : stage.Known expected) : Answers True c a := by
  intro t
  rw [h.run t]
  cases hexchange : stage.exchange c t.server with
  | error error =>
    obtain ⟨cause, hcause⟩ := Call.serverFailure_of_exchange hexchange
    refine ⟨[], .nil rfl rfl, by simp, .served (by simp) fun message heq => ?_, fun _ => nofun,
      fun _ _ _ => .inr (Call.exchange_eq_error hexchange).1⟩
    cases hcause.symm.trans (Except.error.inj heq)
  | ok answer =>
    obtain ⟨x, next⟩ := answer
    obtain ⟨hrequest, hanswer⟩ := Call.exchange_eq_ok hexchange
    refine ⟨[⟨stage, x⟩], ⟨rfl, next, hanswer, rfl⟩, ?_, ?_, fun _ _ _ => List.cons_ne_nil _ _,
      nofun⟩
    · intro y hy
      obtain rfl := List.mem_singleton.mp hy
      exact ⟨hrequest, expected, hknown⟩
    dsimp only
    cases hvalue : value x.reply with
    | error error =>
      have hfailed : (⟨stage, x⟩ : Played).failure? = some error :=
        (h.error_iff x.reply error).mp hvalue
      rw [← List.nil_append [_]]
      exact .failed (by simp) hfailed rfl
    | ok a =>
      have hserved : (⟨stage, x⟩ : Played).failure? = none := by
        rw [Option.eq_none_iff_forall_ne_some]
        intro error herror
        rw [(h.error_iff x.reply error).mpr herror] at hvalue
        cases hvalue
      exact .served (by simpa using hserved) nofun

end

/-! ## Calls of the service -/

section
variable (c : Client)

theorem carriesOut_search (p : SearchParams) :
    CarriesOut c (.search p) (ServiceAction.call (c.searchNotes p)) foundNotes :=
  carriesOut_call c (.search p) isPlain_notes (Client.run_decodeReply SearchResults.decode)
    decoded_error_iff

theorem carriesOut_create (n : NewNote) :
    CarriesOut c (.create n) (ServiceAction.call (c.createNote n)) createdNote :=
  carriesOut_call c (.create n) isPlain_newNote (Client.run_decodeReply PlacedNote.decode)
    decoded_error_iff

theorem carriesOut_describe :
    CarriesOut c .describe (ServiceAction.call c.appInfo) fun reply =>
      (Client.accept reply).bind fun reply =>
        (Json.decodeGlyphs AppInfo.decode (Utf8.pieces reply.content)).mapError .undecodable :=
  carriesOut_call c .describe isPlain_appInfo (Client.run_decodeReply AppInfo.decode)
    decoded_error_iff

theorem carriesOut_delete (id : NoteId) :
    CarriesOut c (.delete id.text) (ServiceAction.call (c.deleteNote id.text))
      fun reply => (Client.accept reply).bind fun _ => .ok () := by
  rw [Client.deleteNote, Client.noteId_text, pure_bind]
  exact carriesOut_call c (.delete id.text) (isPlain_note id (by decide)) (fun _ _ => rfl)
    (by simp [Stage.delete])

theorem carriesOut_read {text : String} {id : NoteId} (h : NoteId.read? text = some id) :
    CarriesOut c (.read id.text) (ServiceAction.call (c.getContent text)) fun reply =>
      (Client.accept reply).bind fun reply =>
        .ok (decodeText reply.contentType reply.content) := by
  rw [Client.getContent, Client.noteId_of_read? h, pure_bind]
  exact carriesOut_call c (.read id.text) (isPlain_note id (by decide)) (fun _ _ => rfl)
    (by simp [Stage.read])

/-- A text that is no id is the fault of the request. -/
theorem answers_noteId_bind {α : Type} {text : String} (h : NoteId.read? text = none)
    (f : NoteId → Action ApiError α) :
    Answers True c (ServiceAction.call (Client.noteId text >>= f)) := by
  have hrun (t : Session) : Action.run (ServiceAction.call (Client.noteId text >>= f)) t =
      (.error (.invalidRequest (.badNoteId text)), t) := by
    rw [ServiceAction.call, Client.noteId, h]
    rfl
  exact answers_of_refusal (.inl ⟨_, rfl⟩) hrun

theorem answers_getNote (text : String) : Answers True c (ServiceAction.call (c.getNote text)) := by
  cases hid : NoteId.read? text with
  | none => exact answers_noteId_bind c hid _
  | some id =>
    rw [Client.getNote_of_read? hid]
    exact answers_of_carriesOut (carriesOut_fetch c id) (.fetch id)

theorem answers_getContent (text : String) :
    Answers True c (ServiceAction.call (c.getContent text)) := by
  cases hid : NoteId.read? text with
  | none => exact answers_noteId_bind c hid _
  | some id => exact answers_of_carriesOut (carriesOut_read c hid) (.read id)

end

/-! ### Checks refuse requests -/

section
variable {e : ServiceError}

theorem isRefusal_of_checkNoteId {text : String} (h : checkNoteId text = .error e) :
    e.IsRefusal := by
  unfold checkNoteId at h
  split at h
  · cases h
  · cases h
    exact .inl ⟨_, rfl⟩

theorem isRefusal_of_checkNoteType {kind : String} {mime : Option String}
    (h : checkNoteType kind mime = .error e) : e.IsRefusal := by
  unfold checkNoteType at h
  split at h
  · cases h
    exact .inl ⟨_, rfl⟩
  · split at h
    · cases h
      exact .inl ⟨_, rfl⟩
    · cases h

theorem CreateRequest.isRefusal_of_newNote {r : CreateRequest} (h : r.newNote = .error e) :
    e.IsRefusal := by
  by_cases hmet : ∀ demand ∈ r.demands, demand.1
  · rw [newNote_of_demands hmet] at h
    cases h
  · obtain ⟨fault, hfault⟩ := exists_firstFault_iff.mpr hmet
    rw [newNote_of_firstFault hfault] at h
    cases h
    exact .inl ⟨_, rfl⟩

theorem UpdateRequest.isRefusal_of_patch {r : UpdateRequest} (h : r.patch = .error e) :
    e.IsRefusal := by
  by_cases htitle : ∀ title ∈ r.title, blank title = false
  · rw [patch_eq_ok htitle] at h
    cases h
  · push Not at htitle
    obtain ⟨title, hmem, hblank⟩ := htitle
    rw [patch_eq_error hmem (eq_true_of_ne_false hblank)] at h
    cases h
    exact .inl ⟨_, rfl⟩

theorem Service.isRefusal_of_plan {s : Service} {r : SearchRequest} (h : s.plan r = .error e) :
    e.IsRefusal := by
  by_cases hlimit : LimitInRange s.maxLimit r.limit
  · rw [plan_of_inRange hlimit] at h
    cases hresult : r.query.compile.result with
    | error date =>
      rw [hresult] at h
      cases h
      exact .inr ⟨_, rfl⟩
    | ok line =>
      rw [hresult, SearchRequest.ask] at h
      split at h
      · cases h
        exact .inl ⟨_, rfl⟩
      · cases h
  · obtain ⟨n, hn, hout⟩ := exists_outOfRange hlimit
    rw [plan, hn, checkLimit_of_outOfRange hout] at h
    cases h
    exact .inl ⟨_, rfl⟩

end

namespace Service

variable (s : Service)

theorem answers_search (r : SearchRequest) : Answers True s.client (s.search r) := by
  have hcompile : Answers False s.client (s.compileSearch r) := by
    refine answers_of_silent (fun t => ?_) (fun t => ?_) fun t e he => ?_
    · rw [run_compileSearch]
    · rw [run_compileSearch]
    · rw [run_compileSearch] at he
      exact isRefusal_of_plan he
  unfold search
  refine hcompile.bind_right fun p => ?_
  refine
    (answers_of_carriesOut (carriesOut_search s.client p.1) (.search p.1)).bind_left fun _ => ?_
  exact (answers_report _).bind_left fun _ => answers_pure _

theorem answers_get (r : GetRequest) : Answers True s.client (s.get r) := by
  unfold get
  refine (answers_getNote s.client r.noteId).bind_left fun note => ?_
  cases r.includeContent with
  | true =>
    refine ((answers_getContent s.client note.noteId).map _).quiet.bind_left fun content => ?_
    exact (answers_report _).bind_left fun _ => answers_pure _
  | false => exact (answers_report _).bind_left fun _ => answers_pure _

theorem answers_create (r : CreateRequest) : Answers True s.client (s.create r) := by
  unfold create
  refine (answers_ofExcept fun e => r.isRefusal_of_newNote).bind_right fun n => ?_
  refine (answers_of_carriesOut (carriesOut_create s.client n) (.create n)).bind_left fun _ => ?_
  exact (answers_report _).bind_left fun _ => answers_pure _

theorem answers_delete (r : DeleteRequest) : Answers True s.client (s.delete r) := by
  unfold delete
  refine (answers_ofExcept fun e => isRefusal_of_checkNoteId).bind_right fun id => ?_
  by_cases hroot : id = NoteId.root
  · rw [if_pos hroot]
    exact answers_of_refusal (.inl ⟨_, rfl⟩) fun _ => rfl
  · rw [if_neg hroot]
    refine
      (answers_of_carriesOut (carriesOut_delete s.client id) (.delete id)).bind_left fun _ => ?_
    exact (answers_report _).bind_left fun _ => answers_pure _

theorem answers_checkConnection : Answers True s.client s.checkConnection := by
  unfold checkConnection
  refine (answers_of_carriesOut (carriesOut_describe s.client) .describe).bind_left fun info => ?_
  exact (answers_report _).bind_left fun _ => answers_pure _

theorem answers_checkNewType (id : NoteId) (p : NotePatch) :
    Answers False s.client (s.checkNewType id p) := by
  unfold checkNewType
  have hcheck (kind mime : String) :
      Answers False s.client (Action.ofExcept (checkNoteType kind (some mime))) :=
    answers_ofExcept fun e => isRefusal_of_checkNoteType
  cases p.kind with
  | none => exact answers_pure ()
  | some kind =>
    cases p.mime with
    | some mime => exact (answers_pure mime).bind_left (hcheck kind)
    | none => exact ((answers_getNote s.client id.text).map Note.mime).quiet.bind_left (hcheck kind)

/-- Changes to the note itself are sent if there are any. -/
theorem answers_applyPatch (id : NoteId) (p : NotePatch) :
    Answers (p.isEmpty = false) s.client (s.applyPatch id p) := by
  unfold applyPatch
  cases p.isEmpty with
  | true => exact (answers_pure []).mono nofun
  | false =>
    have hpatch := answers_of_carriesOut (carriesOut_patch s.client id p) (.patch id p)
    exact (hpatch.bind_left fun _ => answers_pure p.changed).mono fun _ => trivial

/-- Content is sent if there is any. -/
theorem answers_replaceContent (id : NoteId) (content : Option String) (createRevision : Bool) :
    Answers (content.isSome = true) s.client (s.replaceContent id content createRevision) := by
  unfold replaceContent
  cases content with
  | none => exact (answers_pure false).mono nofun
  | some content =>
    have hput (revised : Bool) :=
      (answers_of_carriesOut (carriesOut_content s.client id content)
        (.content id content)).bind_left fun _ => answers_pure (c := s.client) revised
    cases createRevision with
    | false => exact (hput false).mono fun _ => trivial
    | true =>
      have hrevision := answers_of_carriesOut (carriesOut_revision s.client id) (.revision id)
      exact (hrevision.bind_left fun _ => (hput true).quiet).mono fun _ => trivial

theorem answers_update (r : UpdateRequest) : Answers True s.client (s.update r) := by
  unfold update
  refine (answers_ofExcept fun e => isRefusal_of_checkNoteId).bind_right fun id => ?_
  refine (answers_ofExcept fun e => r.isRefusal_of_patch).bind_right fun p => ?_
  cases hempty : p.isEmpty && r.content.isNone with
  | true => exact answers_of_refusal (.inl ⟨_, rfl⟩) fun _ => rfl
  | false =>
    -- Something is to be changed, the note itself or its content, and that is sent.
    have hloud : p.isEmpty = false ∨ r.content.isSome = true := by
      rw [Bool.and_eq_false_iff, Option.isNone_eq_false_iff] at hempty
      exact hempty
    refine (s.answers_checkNewType id p).bind_right fun _ => ?_
    refine ((s.answers_applyPatch id p).bind fun _ => ?_).mono fun _ => hloud
    refine (s.answers_replaceContent id r.content r.createRevision).bind_left fun _ => ?_
    exact (answers_report _).bind_left fun _ => answers_pure _

end Service

/-- Every call of the service ends with the first failing reply, and is loud. -/
theorem ServiceCall.answers_perform (s : Service) (call : ServiceCall) :
    Answers True s.client (call.perform s) := by
  cases call with
  | search r => exact (s.answers_search r).map _
  | get r => exact (s.answers_get r).map _
  | create r => exact (s.answers_create r).map _
  | update r => exact (s.answers_update r).map _
  | delete r => exact (s.answers_delete r).map _
  | checkConnection => exact s.answers_checkConnection.map _

/-! ## What the last reply makes of a call -/

section
variable {α : Type} {c : Client} {outcome : Except ServiceError α} {played : List Played}

theorem Settled.stops (h : Settled outcome played) : ∀ x ∈ played.dropLast, x.failure? = none := by
  cases h with
  | served hall _ => exact fun x hx => hall x (List.dropLast_subset _ hx)
  | failed hpassed _ _ => rwa [List.dropLast_concat]

/-- A last reply that fails decides the error. -/
theorem Settled.decides (h : Settled outcome played) {x : Played} (hx : x ∈ played.getLast?)
    {error : ApiError} (hfailure : x.failure? = some error) : outcome = .error (.ofApi error) := by
  cases h with
  | served hall _ =>
    rw [hall x (List.mem_of_getLast? hx)] at hfailure
    cases hfailure
  | failed _ hfailure' houtcome =>
    rw [List.getLast?_concat, Option.mem_some_iff] at hx
    subst hx
    rw [houtcome, Option.some.inj (hfailure'.symm.trans hfailure)]

/-- The error of a note that is missing is that of the last reply. -/
theorem Settled.of_notFound (h : Settled outcome played) {message : String}
    (hmissing : outcome = .error (.notFound message)) :
    ∃ x ∈ played.getLast?, ∃ error, x.failure? = some error ∧
      ServiceError.ofApi error = .notFound message := by
  cases h with
  | served _ hfound => exact absurd hmissing (hfound message)
  | @failed passed x error _ hfailure houtcome =>
    refine ⟨x, by rw [List.getLast?_concat]; rfl, error, hfailure, ?_⟩
    exact Except.error.inj (houtcome.symm.trans hmissing)

/-- The wording of a refusal that is a failure of the server. -/
theorem ServiceError.message_refused (status : Nat) (code message : String) :
    (serverFailure (.refused status code message)).message =
      "Trilium error: ETAPI returned " ++ toString status ++ " " ++ code ++ ": " ++ message := by
  show "Trilium error: " ++
    ("ETAPI returned " ++ toString status ++ " " ++ code ++ ": " ++ message) = _
  generalize toString status = shown
  have hwords : "Trilium error: ETAPI returned " = "Trilium error: " ++ "ETAPI returned " := by
    decide
  rw [hwords]
  simp only [String.append_assoc]

/-- An action that ends with the first failing reply treats replies by their classes. -/
theorem Answered.callRun {t t' : Session} (h : Answered True c t outcome t' played) :
    CallRun c t outcome t' played where
  toExchanged := h.toExchanged
  built := h.built
  stops x hx := x.served (h.settled.stops x hx)
  notFound message := by
    constructor
    · intro houtcome
      obtain ⟨x, hx, error, hfailure, herror⟩ := h.settled.of_notFound houtcome
      obtain ⟨-, expected, hknown⟩ := h.built x (List.mem_of_getLast? hx)
      by_cases hstatus : 200 ≤ x.reply.status ∧ x.reply.status ≤ 299
      · rw [x.failure?_of_success hstatus] at hfailure
        obtain ⟨e, rfl⟩ := hknown.undecodable_of_reject? hfailure
        cases herror
      · rw [x.failure?_of_refused hstatus] at hfailure
        obtain ⟨code, said, hrefuses⟩ := x.reply.exists_refuses
        rw [refusal_iff.mpr hrefuses] at hfailure
        obtain rfl := Option.some.inj hfailure
        by_cases hmissing : x.reply.status = 404
        · rw [hmissing] at herror
          obtain rfl := ServiceError.notFound.inj herror
          exact ⟨x, hx, hmissing, code, hrefuses⟩
        · rw [ofApi_refused hmissing] at herror
          cases herror
    · rintro ⟨x, hx, hstatus, code, hrefuses⟩
      have hfailure := x.failure?_of_refused (by omega)
      rw [refusal_iff.mpr hrefuses, hstatus] at hfailure
      exact h.settled.decides hx hfailure
  refused x hx hstatus hfound code message hrefuses := by
    have hfailure := x.failure?_of_refused hstatus
    rw [refusal_iff.mpr hrefuses] at hfailure
    refine ⟨.refused x.reply.status code message, ?_, ?_⟩
    · rw [h.settled.decides hx hfailure, ofApi_refused hfound]
    · exact ServiceError.message_refused x.reply.status code message
  garbled x hx hstatus expected hknown hnot := by
    cases hreject : x.stage.reject? x.reply with
    | none => exact absurd ((hknown.reject?_eq_none_iff x.reply).mp hreject) hnot
    | some error =>
      obtain ⟨e, rfl⟩ := hknown.undecodable_of_reject? hreject
      exact ⟨e, h.settled.decides hx ((x.failure?_of_success hstatus).trans hreject)⟩
  silent hnil := by
    cases houtcome : outcome with
    | ok x => exact absurd hnil (h.heard trivial x houtcome)
    | error e =>
      obtain (⟨fault, rfl⟩ | ⟨date, rfl⟩) | hsilent := h.unheard hnil e houtcome
      · exact .inl ⟨fault, rfl⟩
      · exact .inr (.inl ⟨date, rfl⟩)
      · exact .inr (.inr hsilent)

end

/-- **Replies are classified by the first failing one.** Every call of the service stops at the
first reply that is not a success, or not as expected, and ends with what that reply says; and every
reply says one thing. -/
theorem calls_classify_replies :
    (∀ reply : Reply, ∃! told : String × String, reply.Refuses told.1 told.2) ∧
    ∀ (s : Service) (call : ServiceCall) (t : Session), ∃ played,
      CallRun s.client t (Action.run (call.perform s) t).1 (Action.run (call.perform s) t).2
        played := by
  refine ⟨fun reply => ?_, fun s call t => ?_⟩
  · obtain ⟨code, message, hrefuses⟩ := reply.exists_refuses
    refine ⟨(code, message), hrefuses, fun told htold => ?_⟩
    obtain ⟨hcode, hmessage⟩ := htold.unique hrefuses
    exact Prod.ext hcode hmessage
  · obtain ⟨played, hanswered⟩ := call.answers_perform s t
    exact ⟨played, hanswered.callRun⟩

end NoteTools
