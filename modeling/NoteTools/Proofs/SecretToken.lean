import NoteTools.Proofs.Runs
import NoteTools.Proofs.SearchPlan

/-!
# The token stays secret

Nothing that the service gives, and nothing that it reports, depends on the token for the note
server. With another token that can stand in a header, a run gives the same answers and reports the
same events, and its requests differ in their authorization only. With a token that cannot, nothing
is sent at all, and which one it is makes no difference: a call that would have sent a request fails
with the error of a request that cannot be built.

Each of these compares two runs. The service is put together from actions that only report and from
calls of the note server, so a relation between actions holds of two runs of the service as soon as
it holds of the calls and is kept when actions are put together.

Main definitions:

* `Action.Local`: an action that only reports;
* `Action.Congruence`: a relation that is kept when actions are put together;
* `Action.Resigns`, `Action.Stops`: how actions behave with another token;
* `Service.withToken`: the service with another token.

Results:

* `Service.related_perform`: a relation that holds of the calls of the note server holds of the
  calls of the service;
* `resigns_perform`, `perform_congr`, `stops_perform`: a call of the service with two tokens;
* `Service.runCalls_withToken`: a run of the service with two tokens.
-/

namespace NoteTools

open Http

namespace Action

variable {ε δ α β : Type}

theorem ext {x y : Action ε α} (h : ∀ t, run x t = run y t) : x = y :=
  funext h

/-! ## Actions that only report -/

/-- An action that does nothing but report, and gives the same in every session. -/
def Local (x : Action ε α) : Prop :=
  ∃ result events, ∀ t, run x t = (result, { t with events := t.events ++ events })

theorem local_of_run {x : Action ε α} {result : Except ε α} (h : ∀ t, run x t = (result, t)) :
    Local x :=
  ⟨result, [], fun t => by rw [h, List.append_nil]⟩

theorem local_pure (v : α) : Local (pure v : Action ε α) :=
  local_of_run (run_pure v)

theorem local_throw (e : ε) : Local (throw e : Action ε α) :=
  local_of_run (run_throw e)

theorem local_ofExcept (r : Except ε α) : Local (ofExcept r) :=
  local_of_run (run_ofExcept r)

theorem local_report (event : Event) : Local (report event : Action ε Unit) :=
  ⟨.ok (), [event], run_report event⟩

theorem local_decodeReply (d : Json.Decoder α) (reply : Reply) :
    Local (Client.decodeReply d reply) :=
  local_of_run (Client.run_decodeReply d reply)

theorem local_noteId (text : String) : Local (Client.noteId text) := by
  unfold Client.noteId
  cases NoteId.read? text with
  | none => exact local_throw _
  | some id => exact local_pure id

theorem Local.bind {x : Action ε α} {f : α → Action ε β} (hx : Local x) (hf : ∀ v, Local (f v)) :
    Local (x >>= f) := by
  obtain ⟨result, events, hrun⟩ := hx
  cases result with
  | error e => exact ⟨.error e, events, fun t => by rw [run_bind, hrun]⟩
  | ok v =>
    obtain ⟨result, more, hmore⟩ := hf v
    refine ⟨result, events ++ more, fun t => ?_⟩
    rw [run_bind_ok (hrun t), hmore, List.append_assoc]

theorem Local.mapError {x : Action ε α} (hx : Local x) (h : ε → δ) : Local (mapError h x) := by
  obtain ⟨result, events, hrun⟩ := hx
  exact ⟨result.mapError h, events, fun t => by rw [run_mapError, hrun]⟩

theorem Local.server_eq {x : Action ε α} (h : Local x) (t : Session) :
    (run x t).2.server = t.server := by
  obtain ⟨result, events, hrun⟩ := h
  rw [hrun]

theorem Local.requests_eq {x : Action ε α} (h : Local x) (t : Session) :
    (run x t).2.requests = t.requests := by
  obtain ⟨result, events, hrun⟩ := h
  rw [hrun]

/-! ## Relations that are kept -/

/-- A relation between actions that is kept when actions are put together. It may mention an error,
which is changed along with the errors of the actions. -/
structure Congruence (R : ∀ ⦃ε α : Type⦄, ε → Action ε α → Action ε α → Prop) : Prop where
  ofLocal : ∀ {ε α : Type} (e : ε) {x : Action ε α}, Local x → R e x x
  bind : ∀ {ε α β : Type} {e : ε} {x y : Action ε α} {f g : α → Action ε β}, R e x y →
    (∀ v, R e (f v) (g v)) → R e (x >>= f) (y >>= g)
  mapError : ∀ {ε δ α : Type} {e : ε} {x y : Action ε α} (h : ε → δ), R e x y →
    R (h e) (mapError h x) (mapError h y)

namespace Congruence

variable {R : ∀ ⦃ε α : Type⦄, ε → Action ε α → Action ε α → Prop} (hR : Congruence R)
include hR

theorem map {e : ε} {x y : Action ε α} (h : R e x y) (f : α → β) : R e (f <$> x) (f <$> y) := by
  rw [← bind_pure_comp, ← bind_pure_comp]
  exact hR.bind h fun v => hR.ofLocal e (local_pure (f v))

theorem call {x y : Action ApiError α} (h : R .unbuildable x y) :
    R (.serverFailure .unbuildable) (ServiceAction.call x) (ServiceAction.call y) :=
  hR.mapError ServiceError.ofApi h

/-- A check that throws, and what is done unless it does. -/
theorem unless_throw {p : Prop} [Decidable p] {e error : ε} {x y : Action ε α} (h : R e x y) :
    R e (if p then (do let v ← throw error; (fun _ : Unit => x) v) else x)
      (if p then (do let v ← throw error; (fun _ : Unit => y) v) else y) := by
  by_cases hp : p
  · rw [if_pos hp, if_pos hp]
    exact hR.bind (hR.ofLocal e (local_throw error)) fun _ => h
  · rw [if_neg hp, if_neg hp]
    exact h

end Congruence

end Action

/-! ## The service with another client -/

open NoteTools.Action

section
variable {R : ∀ ⦃ε α : Type⦄, ε → Action ε α → Action ε α → Prop} (hR : Congruence R)
  {c d : Client} (hsend : ∀ call : Call, IsPlain call.segments → R ApiError.unbuildable
    (c.send call.method call.segments call.query call.body)
    (d.send call.method call.segments call.query call.body))
include hR hsend

namespace Client

theorem related_searchNotes (p : SearchParams) :
    R .unbuildable (c.searchNotes p) (d.searchNotes p) := by
  unfold searchNotes
  refine hR.bind (hsend ⟨_, _, _, _⟩ isPlain_notes) fun reply => ?_
  exact hR.ofLocal _ (local_decodeReply _ reply)

/-- A call on the note of an id or below it, and what is made of the reply. -/
theorem related_onNote (text : String) (method : Method) {rest : List String} (hrest : IsPlain rest)
    (body : Option Body) {f : Reply → Action ApiError α} (hf : ∀ reply, Local (f reply)) :
    R .unbuildable
      (noteId text >>= fun id => c.send method ("notes" :: id.text :: rest) [] body >>= f)
      (noteId text >>= fun id => d.send method ("notes" :: id.text :: rest) [] body >>= f) := by
  refine hR.bind (hR.ofLocal _ (local_noteId text)) fun id => ?_
  refine hR.bind (hsend ⟨method, _, [], body⟩ (isPlain_note id hrest)) fun reply => ?_
  exact hR.ofLocal _ (hf reply)

theorem related_getNote (text : String) : R .unbuildable (c.getNote text) (d.getNote text) :=
  related_onNote hR hsend text .get (by decide) none fun reply => local_decodeReply _ reply

theorem related_getContent (text : String) :
    R .unbuildable (c.getContent text) (d.getContent text) :=
  related_onNote hR hsend text .get (by decide) none fun _ => local_pure _

theorem related_createNote (n : NewNote) : R .unbuildable (c.createNote n) (d.createNote n) := by
  unfold createNote
  refine hR.bind (hsend ⟨_, _, _, _⟩ isPlain_newNote) fun reply => ?_
  exact hR.ofLocal _ (local_decodeReply _ reply)

theorem related_patchNote (text : String) (p : NotePatch) :
    R .unbuildable (c.patchNote text p) (d.patchNote text p) :=
  related_onNote hR hsend text .patch (by decide) _ fun reply => local_decodeReply _ reply

theorem related_putContent (text content : String) :
    R .unbuildable (c.putContent text content) (d.putContent text content) :=
  related_onNote hR hsend text .put (by decide) _ fun _ => local_pure _

theorem related_createRevision (text : String) :
    R .unbuildable (c.createRevision text) (d.createRevision text) :=
  related_onNote hR hsend text .post (by decide) none fun _ => local_pure _

theorem related_deleteNote (text : String) :
    R .unbuildable (c.deleteNote text) (d.deleteNote text) :=
  related_onNote hR hsend text .delete (by decide) none fun _ => local_pure _

theorem related_appInfo : R .unbuildable c.appInfo d.appInfo := by
  unfold appInfo
  refine hR.bind (hsend ⟨_, _, _, _⟩ isPlain_appInfo) fun reply => ?_
  exact hR.ofLocal _ (local_decodeReply _ reply)

end Client

/-! ### The parts of the service -/

variable {s : Service} (hclient : s.client = c)
include hclient

namespace Service

omit hsend hclient in
theorem related_compileSearch (r : SearchRequest) (e : ServiceError) :
    R e (s.compileSearch r) ({ s with client := d }.compileSearch r) :=
  hR.ofLocal e ⟨_, _, s.run_compileSearch r⟩

theorem related_checkNewType (id : NoteId) (p : NotePatch) :
    R (.serverFailure .unbuildable) (s.checkNewType id p)
      ({ s with client := d }.checkNewType id p) := by
  subst hclient
  unfold checkNewType
  cases p.kind with
  | none => exact hR.ofLocal _ (local_pure ())
  | some kind =>
    cases p.mime with
    | some mime => exact hR.ofLocal _ (local_ofExcept _)
    | none =>
      refine hR.bind (hR.map (hR.call (Client.related_getNote hR hsend id.text)) _) fun mime => ?_
      exact hR.ofLocal _ (local_ofExcept _)

theorem related_applyPatch (id : NoteId) (p : NotePatch) :
    R (.serverFailure .unbuildable) (s.applyPatch id p)
      ({ s with client := d }.applyPatch id p) := by
  subst hclient
  unfold applyPatch
  split
  · exact hR.ofLocal _ (local_pure [])
  · refine hR.bind (hR.call (Client.related_patchNote hR hsend id.text p)) fun _ => ?_
    exact hR.ofLocal _ (local_pure _)

theorem related_replaceContent (id : NoteId) (content : Option String) (createRevision : Bool) :
    R (.serverFailure .unbuildable) (s.replaceContent id content createRevision)
      ({ s with client := d }.replaceContent id content createRevision) := by
  subst hclient
  unfold replaceContent
  cases content with
  | none => exact hR.ofLocal _ (local_pure false)
  | some content =>
    have hput : R (.serverFailure .unbuildable)
        (do ServiceAction.call (s.client.putContent id.text content)
            return createRevision : ServiceAction Bool)
        (do ServiceAction.call (d.putContent id.text content)
            return createRevision : ServiceAction Bool) :=
      hR.bind (hR.call (Client.related_putContent hR hsend id.text content)) fun _ =>
        hR.ofLocal _ (local_pure _)
    cases createRevision with
    | false => exact hput
    | true =>
      exact hR.bind (hR.call (Client.related_createRevision hR hsend id.text)) fun _ => hput

/-! ### The calls of the service -/

theorem related_search (r : SearchRequest) :
    R (.serverFailure .unbuildable) (s.search r) ({ s with client := d }.search r) := by
  subst hclient
  unfold search
  refine hR.bind (related_compileSearch hR r _) fun p => ?_
  refine hR.bind (hR.call (Client.related_searchNotes hR hsend p.1)) fun results => ?_
  exact hR.ofLocal _ ((local_report _).bind fun _ => local_pure _)

theorem related_get (r : GetRequest) :
    R (.serverFailure .unbuildable) (s.get r) ({ s with client := d }.get r) := by
  subst hclient
  unfold get
  refine hR.bind (hR.call (Client.related_getNote hR hsend r.noteId)) fun note => ?_
  have hreport (content : Option String) : Local (do
      Action.report {
        level := .info, message := "Fetched note."
        fields := [("note_id", .text note.noteId), ("with_content", .bool content.isSome)] }
      return { note, content } : ServiceAction NoteView) :=
    (local_report _).bind fun _ => local_pure _
  cases r.includeContent with
  | true =>
    refine hR.bind (hR.map (hR.call (Client.related_getContent hR hsend note.noteId)) _) fun _ => ?_
    exact hR.ofLocal _ (hreport _)
  | false =>
    simp only [Bool.false_eq_true, if_false]
    exact hR.ofLocal _ ((local_pure none).bind hreport)

theorem related_create (r : CreateRequest) :
    R (.serverFailure .unbuildable) (s.create r) ({ s with client := d }.create r) := by
  subst hclient
  unfold create
  refine hR.bind (hR.ofLocal _ (local_ofExcept r.newNote)) fun new => ?_
  refine hR.bind (hR.call (Client.related_createNote hR hsend new)) fun created => ?_
  exact hR.ofLocal _ ((local_report _).bind fun _ => local_pure _)

theorem related_update (r : UpdateRequest) :
    R (.serverFailure .unbuildable) (s.update r) ({ s with client := d }.update r) := by
  unfold update
  refine hR.bind (hR.ofLocal _ (local_ofExcept (checkNoteId r.noteId))) fun id => ?_
  refine hR.bind (hR.ofLocal _ (local_ofExcept r.patch)) fun patch => ?_
  refine hR.unless_throw ?_
  refine hR.bind (related_checkNewType hR hsend hclient id patch) fun _ => ?_
  refine hR.bind (related_applyPatch hR hsend hclient id patch) fun changed => ?_
  refine hR.bind (related_replaceContent hR hsend hclient id _ _) fun revised => ?_
  exact hR.ofLocal _ ((local_report _).bind fun _ => local_pure _)

theorem related_delete (r : DeleteRequest) :
    R (.serverFailure .unbuildable) (s.delete r) ({ s with client := d }.delete r) := by
  subst hclient
  unfold delete
  refine hR.bind (hR.ofLocal _ (local_ofExcept (checkNoteId r.noteId))) fun id => ?_
  refine hR.unless_throw ?_
  refine hR.bind (hR.call (Client.related_deleteNote hR hsend id.text)) fun _ => ?_
  exact hR.ofLocal _ ((local_report _).bind fun _ => local_pure _)

theorem related_checkConnection :
    R (.serverFailure .unbuildable) s.checkConnection
      ({ s with client := d } : Service).checkConnection := by
  subst hclient
  unfold checkConnection
  refine hR.bind (hR.call (Client.related_appInfo hR hsend)) fun info => ?_
  exact hR.ofLocal _ ((local_report _).bind fun _ => local_pure _)

/-- **A relation that is kept**, and that holds of the calls of the note server by two clients,
holds of the calls of the service with these clients. -/
theorem related_perform (call : ServiceCall) :
    R (.serverFailure .unbuildable) (call.perform s) (call.perform { s with client := d }) := by
  cases call with
  | search r => exact hR.map (related_search hR hsend hclient r) _
  | get r => exact hR.map (related_get hR hsend hclient r) _
  | create r => exact hR.map (related_create hR hsend hclient r) _
  | update r => exact hR.map (related_update hR hsend hclient r) _
  | delete r => exact hR.map (related_delete hR hsend hclient r) _
  | checkConnection => exact hR.map (related_checkConnection hR hsend hclient) _

end Service

end

/-! ## Another token that can stand in a header -/

/-- A request with another value of its authorization header. -/
def Http.Request.signed (token : String) (request : Request) : Request :=
  { request with authorization := token }

/-- A session whose requests were sent with another token. -/
def Session.signed (token : String) (t : Session) : Session :=
  { t with requests := t.requests.map (Request.signed token) }

/-- An action that does as another one does, but sends its requests with a token. -/
def Action.Resigns {ε α : Type} (token : String) (x y : Action ε α) : Prop :=
  ∀ t, run y (t.signed token) = ((run x t).1, (run x t).2.signed token)

/-- Doing the same with a token is kept. -/
theorem congruence_resigns (token : String) :
    Congruence fun _ _ _ x y => Action.Resigns token x y where
  ofLocal _ _ hlocal := by
    obtain ⟨result, events, hrun⟩ := hlocal
    intro t
    rw [hrun, hrun]
    rfl
  bind {_ _ _ _ x y _ _} hxy hfg := by
    intro t
    rw [run_bind, run_bind, hxy t]
    obtain ⟨result, u⟩ := run x t
    cases result with
    | error e => rfl
    | ok v => exact hfg v u
  mapError h hxy := by
    intro t
    rw [run_mapError, run_mapError, hxy t]

namespace Client

/-- A client with another token. -/
def withToken (c : Client) (token : String) : Client :=
  { c with token }

variable {c : Client} {a b : String}

/-- The calls of the note server with two tokens that can stand in a header differ in the
authorization only. -/
theorem resigns_send (ha : isHeaderText a = true) (hb : isHeaderText b = true) (call : Call)
    (hplain : IsPlain call.segments) :
    Action.Resigns b
      ((c.withToken a).send call.method call.segments call.query call.body)
      ((c.withToken b).send call.method call.segments call.query call.body) := by
  intro t
  have hready (token : String) (h : isHeaderText token = true) :
      (c.withToken token).ready? = c.endpoint? := if_pos h
  rw [run_send _ call hplain, run_send _ call hplain, Call.exchange, Call.exchange, hready a ha,
    hready b hb]
  cases c.endpoint? with
  | none => rfl
  | some e =>
    have hserver : (t.signed b).server = t.server := rfl
    rw [hserver]
    dsimp only
    cases t.server.answer with
    | none => rfl
    | some answer =>
      obtain ⟨reply, next⟩ := answer
      simp only [Session.signed, Session.after, List.map_append]
      rfl

end Client

/-! ## Tokens that cannot stand in a header -/

/-- Doing the same is kept. -/
theorem congruence_eq : Congruence fun _ _ _ x y => x = y where
  ofLocal _ _ _ := rfl
  bind hxy hfg := by rw [hxy, funext hfg]
  mapError _ hxy := by rw [hxy]

namespace Action

variable {ε α : Type}

/-- An action that sends nothing: it does as another one does, unless that one would send a request,
and then it fails. -/
structure Stops (e : ε) (x y : Action ε α) : Prop where
  /-- Nothing is sent. -/
  isLocal : Local y
  /-- The requests of the other action come after those sent before. -/
  sends : Sends (fun _ => True) x
  /-- Both do the same, or the one fails and the other sends a request if the server answers. -/
  same_or_fails : ∀ t, run y t = run x t ∨
    (run y t).1 = .error e ∧ (t.server.answer ≠ none → (run x t).2.requests ≠ t.requests)

/-- What was sent stays sent. -/
theorem Sends.requests_ne {x : Action ε α} {P : Request → Prop} (h : Sends P x) {t u : Session}
    {sent : List Request} (hu : u.requests = t.requests ++ sent) (hne : u.requests ≠ t.requests) :
    (run x u).2.requests ≠ t.requests := by
  obtain ⟨more, hmore, -⟩ := h u
  intro heq
  rw [hmore, hu, List.append_assoc, List.append_right_eq_self, List.append_eq_nil_iff] at heq
  exact hne (by rw [hu, heq.1, List.append_nil])

end Action

/-- Stopping before the first request is kept. Where the first parts do the same they send nothing,
so that the second parts start with the same server and the same requests. -/
theorem congruence_stops : Congruence fun _ _ e x y => Action.Stops e x y where
  ofLocal _ x hlocal :=
    ⟨hlocal, sends_of_requests_eq hlocal.requests_eq, fun t => .inl rfl⟩
  bind {_ _ _ e x y f g} hxy hfg := by
    refine ⟨hxy.isLocal.bind fun v => (hfg v).isLocal, hxy.sends.bind fun v => (hfg v).sends, ?_⟩
    intro t
    rw [run_bind, run_bind]
    have hserver := hxy.isLocal.server_eq t
    have hrequests := hxy.isLocal.requests_eq t
    obtain hsame | ⟨hfails, hsent⟩ := hxy.same_or_fails t
    · rw [hsame] at hserver hrequests ⊢
      generalize run x t = r at hserver hrequests ⊢
      obtain ⟨result | v, u⟩ := r
      · exact .inl rfl
      · -- Nothing has been sent up to here, so what `f v` sends is what the whole sends.
        rw [← hserver, ← hrequests]
        exact (hfg v).same_or_fails u
    · obtain ⟨sent, hgrows, -⟩ := hxy.sends t
      refine .inr ⟨?_, fun hanswer => ?_⟩
      · generalize run y t = r at hfails ⊢
        obtain ⟨result, u⟩ := r
        rw [show result = .error e from hfails]
      · have hne := hsent hanswer
        generalize run x t = r at hgrows hne ⊢
        obtain ⟨result | v, u⟩ := r
        · exact hne
        · exact (hfg v).sends.requests_ne hgrows hne
  mapError h hxy := by
    refine ⟨hxy.isLocal.mapError h, hxy.sends.mapError h, fun t => ?_⟩
    rw [run_mapError, run_mapError]
    obtain hsame | ⟨hfails, hsent⟩ := hxy.same_or_fails t
    · exact .inl (by rw [hsame])
    · exact .inr ⟨by rw [hfails]; rfl, hsent⟩

namespace Client

variable {c : Client} {a b : String}

/-- With a token that cannot stand in a header no request can be built. -/
theorem send_withToken (hb : isHeaderText b = false) (call : Call)
    (hplain : IsPlain call.segments) :
    (c.withToken b).send call.method call.segments call.query call.body = throw .unbuildable := by
  have hready : (c.withToken b).ready? = none := if_neg (by simp [withToken, hb])
  refine Action.ext fun t => ?_
  rw [run_send _ call hplain, Call.exchange, hready]
  exact (run_throw _ t).symm

theorem stops_send (ha : isHeaderText a = true) (hb : isHeaderText b = false) (call : Call)
    (hplain : IsPlain call.segments) :
    Action.Stops .unbuildable
      ((c.withToken a).send call.method call.segments call.query call.body)
      ((c.withToken b).send call.method call.segments call.query call.body) := by
  rw [send_withToken hb call hplain]
  refine
    ⟨local_throw _, sends_send (c := c.withToken a) call hplain fun _ _ => trivial, fun t => ?_⟩
  have hready : (c.withToken a).ready? = c.endpoint? := if_pos ha
  rw [run_send _ call hplain, Call.exchange, hready]
  cases c.endpoint? with
  | none => exact .inl rfl
  | some e =>
    refine .inr ⟨rfl, fun hanswer => ?_⟩
    dsimp only
    cases hreply : t.server.answer with
    | none => exact absurd hreply hanswer
    | some answer => simp [Session.after]

end Client

/-! ## Runs with two tokens -/

namespace Service

/-- The service with another token. -/
def withToken (s : Service) (token : String) : Service :=
  { s with client := s.client.withToken token }

variable {s : Service} {a b : String}

/-- A call with another token that can stand in a header does the same with the other token. -/
theorem resigns_perform (ha : isHeaderText a = true) (hb : isHeaderText b = true)
    (call : ServiceCall) :
    Action.Resigns b (call.perform (s.withToken a)) (call.perform (s.withToken b)) :=
  related_perform (congruence_resigns b) (Client.resigns_send ha hb) rfl call

/-- Which token cannot stand in a header makes no difference to a call. -/
theorem perform_congr (ha : isHeaderText a = false) (hb : isHeaderText b = false)
    (call : ServiceCall) : call.perform (s.withToken a) = call.perform (s.withToken b) :=
  related_perform congruence_eq
    (fun call hplain =>
      (Client.send_withToken ha call hplain).trans (Client.send_withToken hb call hplain).symm)
    rfl call

/-- A call with a token that cannot stand in a header stops before its first request. -/
theorem stops_perform (ha : isHeaderText a = true) (hb : isHeaderText b = false)
    (call : ServiceCall) :
    Action.Stops (.serverFailure .unbuildable) (call.perform (s.withToken a))
      (call.perform (s.withToken b)) :=
  related_perform congruence_stops (Client.stops_send ha hb) rfl call

theorem runCalls_resigned (ha : isHeaderText a = true) (hb : isHeaderText b = true)
    (calls : List ServiceCall) (t : Session) :
    (s.withToken b).runCalls calls (t.signed b) =
      (((s.withToken a).runCalls calls t).1, ((s.withToken a).runCalls calls t).2.signed b) := by
  induction calls generalizing t with
  | nil => rfl
  | cons call calls ih =>
    simp only [runCalls, resigns_perform ha hb call t, ih]

theorem runCalls_congr (ha : isHeaderText a = false) (hb : isHeaderText b = false)
    (calls : List ServiceCall) (t : Session) :
    (s.withToken a).runCalls calls t = (s.withToken b).runCalls calls t := by
  induction calls generalizing t with
  | nil => rfl
  | cons call calls ih => simp only [runCalls, perform_congr ha hb call, ih]

/-- What a call gives that cannot send a request: what it gives anyway if it sends none, and
otherwise the error of a request that cannot be built. -/
def AnswersUnsent (s : Service) (call : ServiceCall) (answer : Except ServiceError ServiceAnswer) :
    Prop :=
  ∀ token t, isHeaderText token = true → t.server.answer ≠ none →
    let (given, u) := Action.run (call.perform (s.withToken token)) t
    (u.requests = t.requests → answer = given) ∧
      (u.requests ≠ t.requests → answer = .error (.serverFailure .unbuildable))

/-- What a call gives does not depend on the session if it sends nothing. -/
theorem answersUnsent_perform (hb : isHeaderText b = false) (call : ServiceCall) (t : Session) :
    s.AnswersUnsent call (Action.run (call.perform (s.withToken b)) t).1 := by
  intro token u htoken hanswer
  have hstops := stops_perform (s := s) htoken hb call
  -- The sessions have nothing in common; an action that only reports gives the same in both.
  have hlocal : (Action.run (call.perform (s.withToken b)) t).1 =
      (Action.run (call.perform (s.withToken b)) u).1 := by
    obtain ⟨result, events, hrun⟩ := hstops.isLocal
    rw [hrun, hrun]
  have hrequests := hstops.isLocal.requests_eq u
  rw [hlocal]
  obtain hsame | ⟨hfails, hsent⟩ := hstops.same_or_fails u
  · rw [hsame] at hrequests ⊢
    exact ⟨fun _ => rfl, fun hne => absurd hrequests hne⟩
  · exact ⟨fun heq => absurd heq (hsent hanswer), fun _ => hfails⟩

theorem runCalls_unsent (hb : isHeaderText b = false) (calls : List ServiceCall) (t : Session) :
    ((s.withToken b).runCalls calls t).2.requests = t.requests ∧
      List.Forall₂ s.AnswersUnsent calls ((s.withToken b).runCalls calls t).1 := by
  induction calls generalizing t with
  | nil => exact ⟨rfl, .nil⟩
  | cons call calls ih =>
    have hlocal : Action.Local (call.perform (s.withToken b)) :=
      (stops_perform (a := "") (by decide) hb call).isLocal
    obtain ⟨hrequests, hanswers⟩ := ih (Action.run (call.perform (s.withToken b)) t).2
    exact ⟨hrequests.trans (hlocal.requests_eq t),
      .cons (answersUnsent_perform hb call t) hanswers⟩

/-- **The token stays secret.** Runs with two tokens that can stand in a header give the same
answers and report the same events, and the requests of one are those of the other with its token.
Runs with two tokens that cannot are the same: nothing is sent, and a call that would have sent a
request fails because it cannot be built. -/
theorem runCalls_withToken (s : Service) (server : Server) (calls : List ServiceCall) :
    (∀ a b, isHeaderText a = true → isHeaderText b = true →
      (s.withToken b).runCalls calls (.start server) =
        (((s.withToken a).runCalls calls (.start server)).1,
          ((s.withToken a).runCalls calls (.start server)).2.signed b)) ∧
    (∀ a b, isHeaderText a = false → isHeaderText b = false →
      (s.withToken b).runCalls calls (.start server) =
          (s.withToken a).runCalls calls (.start server) ∧
        ((s.withToken a).runCalls calls (.start server)).2.requests = [] ∧
        List.Forall₂ s.AnswersUnsent calls
          ((s.withToken a).runCalls calls (.start server)).1) ∧
    (ServiceError.serverFailure .unbuildable).message = "Trilium error: builder error" := by
  refine ⟨fun a b ha hb => runCalls_resigned ha hb calls (.start server), fun a b ha hb => ?_, rfl⟩
  exact ⟨runCalls_congr hb ha calls _, runCalls_unsent ha calls (.start server)⟩

end Service

/-- A service that traces its searches. -/
def tracingService : Service :=
  ⟨⟨"http://gate:8080/etapi", "etapi-token"⟩, 200, true⟩

/-- A search, a call that is refused before it is sent, and one that the server refuses. -/
def mixedCalls : List ServiceCall :=
  [.search { text := some "a b" }, .delete ⟨"root"⟩, .get { noteId := "n1" }]

/-- A server that finds nothing. -/
def emptyServer : Server :=
  ⟨[⟨200, none, Text.Utf8.encode "\x7b\"results\":[]\x7d"⟩, ⟨404, none, []⟩], none⟩

theorem Service.runCalls_withToken_tracing :
    (isHeaderText "first" = true ∧ isHeaderText "sec\tond" = true ∧
      isHeaderText "a\nb" = false ∧ isHeaderText "a\x7fb" = false) ∧
    (tracingService.withToken "sec\tond").runCalls mixedCalls (.start emptyServer) =
      (((tracingService.withToken "first").runCalls mixedCalls (.start emptyServer)).1,
        ((tracingService.withToken "first").runCalls mixedCalls (.start emptyServer)).2.signed
          "sec\tond") ∧
    ((tracingService.withToken "first").runCalls mixedCalls (.start emptyServer)).2.requests.map
      Request.authorization = ["first", "first"] ∧
    (tracingService.withToken "a\x7fb").runCalls mixedCalls (.start emptyServer) =
      (tracingService.withToken "a\nb").runCalls mixedCalls (.start emptyServer) ∧
    ((tracingService.withToken "a\nb").runCalls mixedCalls (.start emptyServer)).1.map
        (fun answer => match answer with
          | .ok _ => none
          | .error e => some e.message) =
      [some "Trilium error: builder error",
        some "Invalid request: The root note cannot be deleted.",
        some "Trilium error: builder error"] :=
  have hfirst : isHeaderText "first" = true := by decide
  have hsecond : isHeaderText "sec\tond" = true := by decide
  have hbreak : isHeaderText "a\nb" = false := by decide
  have hdelete : isHeaderText "a\x7fb" = false := by decide
  have h := tracingService.runCalls_withToken emptyServer mixedCalls
  ⟨⟨hfirst, hsecond, hbreak, hdelete⟩, h.1 _ _ hfirst hsecond, by decide +kernel,
    (h.2.1 _ _ hbreak hdelete).1, by decide +kernel⟩

end NoteTools
