import NoteTools.Proofs.AddressPaths
import NoteTools.Service.Basic

/-!
# What actions do to a session

An action is run step by step: each of its steps gives a value or an error and leaves a session. A
call of the note server is one exchange, unless nothing can be sent or no reply comes. An exchange
is one sending, with the reply that it ends in.

Main definitions:

* `Http.Server.Gives`: the replies that a server gives, in order, and the server after them;
* `Call.request?`: the request of a call, if it can be built;
* `Call.exchange`: a call as an exchange with a server;
* `Client.accept`: a reply as it is, or its refusal.

Results:

* `Action.run_bind`: an action after another one;
* `Client.run_send`: a call is one exchange;
* `Client.run_call`: a call and what is made of its reply, as an action of the service.
-/

namespace NoteTools

open Http

/-! ## Running actions -/

namespace Action

variable {ε δ α β : Type}

@[simp]
theorem run_pure (x : α) (t : Session) : run (pure x : Action ε α) t = (.ok x, t) := rfl

@[simp]
theorem run_throw (e : ε) (t : Session) : run (throw e : Action ε α) t = (.error e, t) := rfl

@[simp]
theorem run_ofExcept (r : Except ε α) (t : Session) : run (ofExcept r) t = (r, t) := rfl

@[simp]
theorem run_report (e : Event) (t : Session) :
    run (report e : Action ε Unit) t = (.ok (), { t with events := t.events ++ [e] }) := rfl

theorem run_bind (a : Action ε α) (f : α → Action ε β) (t : Session) :
    run (a >>= f) t = match run a t with
      | (.ok x, u) => run (f x) u
      | (.error e, u) => (.error e, u) := by
  change (ExceptT.bindCont f (run a t).1) (run a t).2 = _
  obtain ⟨_ | _, u⟩ := run a t <;> rfl

theorem run_bind_ok {a : Action ε α} {t u : Session} {x : α} (h : run a t = (.ok x, u))
    (f : α → Action ε β) : run (a >>= f) t = run (f x) u := by
  rw [run_bind, h]

theorem run_map (f : α → β) (a : Action ε α) (t : Session) :
    run (f <$> a) t = ((run a t).1.map f, (run a t).2) := by
  rw [← bind_pure_comp, run_bind]
  obtain ⟨_ | _, u⟩ := run a t <;> rfl

theorem run_mapError (f : ε → δ) (a : Action ε α) (t : Session) :
    run (mapError f a) t = ((run a t).1.mapError f, (run a t).2) := by
  change (match run a t with
    | (.ok x, u) => (Except.ok x, u)
    | (.error e, u) => (.error (f e), u)) = _
  obtain ⟨_ | _, u⟩ := run a t <;> rfl

theorem run_exchange_none {request : Request} {t : Session} (h : t.server.answer = none) :
    run (exchange request : Action ε (Option Reply)) t = (.ok none, t) := by
  delta run exchange ExceptT.run ExceptT.mk StateT.run
  dsimp only
  rw [h]

theorem run_exchange_some {request : Request} {t : Session} {reply : Reply} {server : Server}
    (h : t.server.answer = some (reply, server)) :
    run (exchange request : Action ε (Option Reply)) t =
      (.ok (some reply), { t with server, requests := t.requests ++ [request] }) := by
  delta run exchange ExceptT.run ExceptT.mk StateT.run
  dsimp only
  rw [h]

end Action

/-! ## Replies of a server -/

/-- A server gives the replies, in order, and becomes another one. -/
def Http.Server.Gives (server : Server) : List Reply → Server → Prop
  | [], after => after = server
  | reply :: replies, after =>
    ∃ next, server.answer = some (reply, next) ∧ next.Gives replies after

namespace Http.Server

/-- As many replies are always the same ones. -/
theorem Gives.unique {server after after' : Server} {replies replies' : List Reply}
    (h : server.Gives replies after) (h' : server.Gives replies' after')
    (hlength : replies.length = replies'.length) : replies = replies' ∧ after = after' := by
  induction replies generalizing server replies' with
  | nil =>
    obtain rfl : replies' = [] := List.eq_nil_of_length_eq_zero hlength.symm
    cases h
    cases h'
    exact ⟨rfl, rfl⟩
  | cons reply replies ih =>
    obtain ⟨reply', replies', rfl⟩ := List.exists_cons_of_length_eq_add_one hlength.symm
    obtain ⟨next, hanswer, hnext⟩ := h
    obtain ⟨next', hanswer', hnext'⟩ := h'
    rw [hanswer] at hanswer'
    cases hanswer'
    obtain ⟨rfl, rfl⟩ := ih hnext hnext' (Nat.succ.inj hlength)
    exact ⟨rfl, rfl⟩

end Http.Server

/-! ## Valid ids -/

/-- The characters of ids are not blank. -/
theorem not_isBlank_of_isIdChar {c : Char} (h : isIdChar c = true) : Text.isBlank c = false := by
  obtain ⟨hlow, hhigh⟩ := toNat_of_isIdChar h
  simp only [Text.isBlank, Bool.or_eq_false_iff, Bool.and_eq_false_iff, decide_eq_false_iff_not,
    beq_eq_false_iff_ne]
  omega

/-- The text of an id spells that id. -/
theorem NoteId.read?_text (id : NoteId) : NoteId.read? id.text = some id := by
  have htrim : Text.trim id.text = id.text := Text.trim_eq_self fun c hc =>
    not_isBlank_of_isIdChar (List.all_eq_true.mp id.valid.2 c hc)
  unfold NoteId.read?
  simp only [htrim, id.valid, dif_pos]

/-! ## Calls of the note server -/

/-- What a client calls the note server with. -/
structure Call where
  /-- The method of the request. -/
  method : Method
  /-- The path of the request, below the endpoint. -/
  segments : List String
  /-- The query of the request. -/
  query : List (String × String) := []
  /-- The body of the request. -/
  body : Option Body := none

/-- A request that was sent, and the reply to it. -/
structure Exchange where
  /-- The request. -/
  request : Request
  /-- The reply. -/
  reply : Reply

/-- Where the requests of a client go, if they can be built. -/
def Client.ready? (c : Client) : Option Endpoint :=
  if isHeaderText c.token then c.endpoint? else none

namespace Call

/-- The address of a call. -/
def place (e : Endpoint) (call : Call) : Endpoint :=
  if call.query.isEmpty then e.below call.segments
  else (e.below call.segments).withQuery call.query

/-- The request of a call at an endpoint. -/
def request (c : Client) (e : Endpoint) (call : Call) : Request where
  method := call.method
  target := (call.place e).target
  authorization := c.token
  contentType := call.body.map Body.contentType
  body := (call.body.map Body.text).getD ""

/-- The request of a call, if it can be built. -/
def request? (c : Client) (call : Call) : Option Request :=
  c.ready?.map fun e => call.request c e

/-- A call as an exchange with a server, and the server after it. -/
def exchange (c : Client) (server : Server) (call : Call) : Except ApiError (Exchange × Server) :=
  match c.ready? with
  | none => .error .unbuildable
  | some e =>
    match server.answer with
    | none => .error (.unreachable (call.place e).url)
    | some (reply, next) => .ok (⟨call.request c e, reply⟩, next)

section
variable {c : Client} {server : Server} {call : Call}

theorem exchange_eq_ok {x : Exchange} {next : Server}
    (h : call.exchange c server = .ok (x, next)) :
    call.request? c = some x.request ∧ server.answer = some (x.reply, next) := by
  unfold exchange at h
  split at h
  · cases h
  next e he =>
    split at h
    · cases h
    next reply next' hanswer =>
      cases h
      exact ⟨by rw [request?, he]; rfl, hanswer⟩

theorem exchange_eq_error {error : ApiError} (h : call.exchange c server = .error error) :
    (c.ready? = none ∨ server.answer = none) ∧
      (error = .unbuildable ∨ ∃ url, error = .unreachable url) := by
  unfold exchange at h
  split at h
  next he =>
    cases h
    exact ⟨.inl he, .inl rfl⟩
  next e he =>
    split at h
    next hanswer =>
      cases h
      exact ⟨.inr hanswer, .inr ⟨_, rfl⟩⟩
    · cases h

/-- Without a reply, the server has failed. -/
theorem serverFailure_of_exchange {error : ApiError} (h : call.exchange c server = .error error) :
    ∃ cause, ServiceError.ofApi error = .serverFailure cause := by
  obtain ⟨-, rfl | ⟨url, rfl⟩⟩ := exchange_eq_error h
  · exact ⟨_, rfl⟩
  · exact ⟨_, rfl⟩

/-- The method and the body of a request are those of its call. -/
theorem method_body_of_request? {request : Request} (h : call.request? c = some request) :
    request.method = call.method ∧ request.body = (call.body.map Body.text).getD "" := by
  obtain ⟨e, -, rfl⟩ := Option.map_eq_some_iff.mp h
  exact ⟨rfl, rfl⟩

/-- Without a request or a reply there is no exchange. -/
theorem exchange_of_silent (h : c.ready? = none ∨ server.answer = none) :
    ∃ error, call.exchange c server = .error error := by
  unfold exchange
  cases hready : c.ready? with
  | none => exact ⟨_, rfl⟩
  | some e =>
    rw [h.resolve_left (by simp [hready])]
    exact ⟨_, rfl⟩

theorem exchange_of_answer {e : Endpoint} {reply : Reply} {next : Server}
    (he : c.ready? = some e) (hanswer : server.answer = some (reply, next)) :
    call.exchange c server = .ok (⟨call.request c e, reply⟩, next) := by
  rw [exchange, he, hanswer]

end

end Call

/-- A session after exchanges. -/
def Session.after (t : Session) (server : Server) (xs : List Exchange) : Session :=
  { t with server, requests := t.requests ++ xs.map Exchange.request }

theorem Session.after_append {t : Session} {between server : Server} {xs ys : List Exchange} :
    (t.after between xs).after server ys = t.after server (xs ++ ys) := by
  simp only [after, List.map_append, List.append_assoc]

namespace Client

/-- A reply as it is, or its refusal. -/
def accept (reply : Reply) : Except ApiError Reply :=
  if reply.isSuccess then .ok reply else .error (refusal reply)

/-- **A call is one exchange.** The request reaches the server, and the reply is accepted or
refused; nothing has happened when the request cannot be built or the server cannot be reached. -/
theorem run_send (c : Client) (call : Call) (h : IsPlain call.segments) (t : Session) :
    Action.run (c.send call.method call.segments call.query call.body) t =
      match call.exchange c t.server with
      | .error error => (.error error, t)
      | .ok (x, server) => (accept x.reply, t.after server [x]) := by
  unfold send Call.exchange ready?
  rw [c.place?_of_isPlain h]
  cases he : c.endpoint? with
  | none =>
    simp only [ite_self]
    rfl
  | some e =>
    simp only [Option.map_some]
    cases htoken : isHeaderText c.token with
    | false => rfl
    | true =>
      simp only [Bool.not_true, Bool.false_eq_true, if_false, if_true]
      cases h : t.server.answer with
      | none =>
        rw [Action.run_bind_ok (Action.run_exchange_none h)]
        rfl
      | some answer =>
        obtain ⟨reply, server⟩ := answer
        rw [Action.run_bind_ok (Action.run_exchange_some h)]
        simp only [accept]
        split <;> rfl

theorem run_decodeReply {α : Type} (d : Json.Decoder α) (reply : Reply) (t : Session) :
    Action.run (decodeReply d reply) t =
      ((Json.decodeGlyphs d (Text.Utf8.pieces reply.content)).mapError .undecodable, t) := by
  rw [decodeReply]
  cases Json.decodeGlyphs d (Text.Utf8.pieces reply.content) <;> rfl

theorem noteId_text (id : NoteId) : noteId id.text = pure id := by
  rw [noteId, NoteId.read?_text]

/-- A call and what is made of its reply, as an action of the service. -/
theorem run_call (c : Client) (call : Call) (h : IsPlain call.segments) {α : Type}
    {read : Reply → Action ApiError α} {value : Reply → Except ApiError α}
    (hread : ∀ reply u, Action.run (read reply) u = (value reply, u)) (t : Session) :
    Action.run (ServiceAction.call
        (c.send call.method call.segments call.query call.body >>= read)) t =
      match call.exchange c t.server with
      | .error error => (.error (.ofApi error), t)
      | .ok (x, server) =>
        (((accept x.reply).bind value).mapError .ofApi, t.after server [x]) := by
  rw [ServiceAction.call, Action.run_mapError, Action.run_bind, run_send c call h]
  cases call.exchange c t.server with
  | error error => rfl
  | ok answer =>
    obtain ⟨x, server⟩ := answer
    dsimp only
    cases accept x.reply with
    | error error => rfl
    | ok reply =>
      dsimp only
      rw [hread]
      rfl

end Client

end NoteTools
