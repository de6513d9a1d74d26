import NoteTools.Proofs.Runs
import NoteTools.Proofs.SearchPlan

/-!
# Exchanges of a run

What a run exchanges with the server is a list: the requests that it sends, each with the reply to
it. A condition on such a list speaks of each exchange and of the one immediately before it. It is
kept by a run when every action keeps it whatever was exchanged before.

Main definitions:

* `Session.Exchanged`: what is exchanged between two states of a session;
* `HoldsAlong`: a condition on each exchange of a list and the one before it;
* `Action.Keeps`: whatever an action exchanges satisfies such a condition.

Results:

* `HoldsAlong.of_append_cons`: the condition at one exchange of a list;
* `Action.Keeps.bind`, `Action.keeps_send`: actions after one another, and a call of the server;
* `Service.keeps_search`, `keeps_get`, `keeps_delete`, `keeps_checkConnection`: the calls that send
  nothing but an address;
* `Service.runCalls_keeps`: a condition that every call keeps holds along a run.
-/

namespace NoteTools

open Http

/-! ## Exchanges between two states of a session -/

theorem Http.Server.Gives.append {server between after : Server} {replies replies' : List Reply}
    (h : server.Gives replies between) (h' : between.Gives replies' after) :
    server.Gives (replies ++ replies') after := by
  induction replies generalizing server with
  | nil =>
    cases h
    exact h'
  | cons reply replies ih =>
    obtain ⟨next, hanswer, hnext⟩ := h
    exact ⟨next, hanswer, ih hnext⟩

/-- What is exchanged between two states of a session, in order. -/
structure Session.Exchanged (t t' : Session) (xs : List Exchange) : Prop where
  /-- The requests have been sent, after those of before. -/
  requests : t'.requests = t.requests ++ xs.map Exchange.request
  /-- The replies are those of the server. -/
  replies : t.server.Gives (xs.map Exchange.reply) t'.server

namespace Session.Exchanged

variable {t u v : Session} {xs ys : List Exchange}

theorem nil (hserver : u.server = t.server) (hrequests : u.requests = t.requests) :
    t.Exchanged u [] where
  requests := by rw [hrequests, List.map_nil, List.append_nil]
  replies := hserver

theorem append (h : t.Exchanged u xs) (h' : u.Exchanged v ys) : t.Exchanged v (xs ++ ys) where
  requests := by rw [h'.requests, h.requests, List.map_append, List.append_assoc]
  replies := by
    rw [List.map_append]
    exact h.replies.append h'.replies

end Session.Exchanged

/-! ## Conditions along exchanges -/

/-- A condition on each exchange of a list and the one before it; the first one has another list
before it, or nothing. -/
def HoldsAlong (P : Option Exchange → Exchange → Prop) : Option Exchange → List Exchange → Prop
  | _, [] => True
  | before, x :: xs => P before x ∧ HoldsAlong P (some x) xs

section
variable {P : Option Exchange → Exchange → Prop} {before : Option Exchange} {xs ys : List Exchange}

theorem holdsAlong_append :
    HoldsAlong P before (xs ++ ys) ↔
      HoldsAlong P before xs ∧ HoldsAlong P (xs.getLast?.or before) ys := by
  induction xs generalizing before with
  | nil => simp [HoldsAlong]
  | cons x xs ih =>
    have hlast : (x :: xs).getLast?.or before = xs.getLast?.or (some x) := by
      rw [List.getLast?_cons]
      cases xs.getLast? <;> rfl
    rw [List.cons_append, HoldsAlong, HoldsAlong, ih, hlast, and_assoc]

/-- A condition that does not depend on what was exchanged before holds along a list when it holds
of each exchange. -/
theorem holdsAlong_of_forall (h : ∀ x ∈ xs, ∀ before, P before x) : HoldsAlong P before xs := by
  induction xs generalizing before with
  | nil => trivial
  | cons x xs ih =>
    obtain ⟨hx, hxs⟩ := List.forall_mem_cons.mp h
    exact ⟨hx before, ih hxs⟩

/-- The condition at one exchange of a list. -/
theorem HoldsAlong.of_append_cons {front back : List Exchange} {x : Exchange}
    (h : HoldsAlong P none (front ++ x :: back)) : P front.getLast? x := by
  have hx := (holdsAlong_append.mp h).2.1
  rwa [Option.or_none] at hx

end

/-! ## What actions exchange -/

namespace Action

variable {ε δ α β : Type} {P : Option Exchange → Exchange → Prop}

/-- Whatever an action exchanges satisfies a condition, whatever was exchanged before. -/
def Keeps (P : Option Exchange → Exchange → Prop) (a : Action ε α) : Prop :=
  ∀ (t : Session) (before : Option Exchange),
    ∃ xs, t.Exchanged (run a t).2 xs ∧ HoldsAlong P before xs

/-- An action that leaves the server and the requests as they are exchanges nothing. -/
theorem keeps_of_eq {a : Action ε α}
    (h : ∀ t, (run a t).2.server = t.server ∧ (run a t).2.requests = t.requests) : Keeps P a :=
  fun t _ => ⟨[], .nil (h t).1 (h t).2, trivial⟩

theorem keeps_pure (x : α) : Keeps P (pure x : Action ε α) :=
  keeps_of_eq fun _ => ⟨rfl, rfl⟩

theorem keeps_report (e : Event) : Keeps P (report e : Action ε Unit) :=
  keeps_of_eq fun _ => ⟨rfl, rfl⟩

/-- Actions after one another exchange what each of them exchanges. -/
theorem Keeps.bind {a : Action ε α} {f : α → Action ε β} (ha : Keeps P a)
    (hf : ∀ x, Keeps P (f x)) : Keeps P (a >>= f) := by
  intro t before
  obtain ⟨xs, hxs, hP⟩ := ha t before
  rw [run_bind]
  cases hrun : run a t with
  | mk result u =>
    rw [hrun] at hxs
    cases result with
    | error e => exact ⟨xs, hxs, hP⟩
    | ok x =>
      obtain ⟨ys, hys, hP'⟩ := hf x u (xs.getLast?.or before)
      exact ⟨xs ++ ys, hxs.append hys, holdsAlong_append.mpr ⟨hP, hP'⟩⟩

/-- Behind a check stands what is done with its value. -/
theorem keeps_ofExcept_bind {r : Except ε α} {f : α → Action ε β}
    (h : ∀ x, r = .ok x → Keeps P (f x)) : Keeps P (ofExcept r >>= f) := by
  cases r with
  | error e => exact keeps_of_eq fun _ => ⟨rfl, rfl⟩
  | ok x =>
    intro t before
    rw [run_bind]
    exact h x rfl t before

theorem Keeps.map {a : Action ε α} (ha : Keeps P a) (f : α → β) : Keeps P (f <$> a) := by
  rw [← bind_pure_comp]
  exact ha.bind fun x => keeps_pure (f x)

theorem Keeps.mapError {a : Action ε α} (ha : Keeps P a) (f : ε → δ) : Keeps P (mapError f a) := by
  intro t before
  rw [run_mapError]
  exact ha t before

/-- A call of the note server is one exchange at most. -/
theorem keeps_send {c : Client} (call : Call) (hplain : IsPlain call.segments)
    (h : ∀ before x, call.request? c = some x.request → P before x) :
    Keeps P (c.send call.method call.segments call.query call.body) := by
  intro t before
  rw [Client.run_send c call hplain]
  cases hexchange : call.exchange c t.server with
  | error error => exact ⟨[], .nil rfl rfl, trivial⟩
  | ok answer =>
    obtain ⟨x, server⟩ := answer
    obtain ⟨hrequest, hanswer⟩ := Call.exchange_eq_ok hexchange
    exact ⟨[x], ⟨rfl, server, hanswer, rfl⟩, h before x hrequest, trivial⟩

theorem keeps_decodeReply (d : Json.Decoder α) (reply : Reply) :
    Keeps P (Client.decodeReply d reply) :=
  keeps_of_eq fun t => by rw [Client.run_decodeReply]; exact ⟨rfl, rfl⟩

end Action

/-! ## Calls that send nothing but an address -/

section
open NoteTools.Action
variable {P : Option Exchange → Exchange → Prop}
  (h : ∀ before x, x.request.method = .get ∨ x.request.method = .delete → P before x)

/-- The id that a text spells, and a call with it. -/
theorem Client.keeps_noteId_bind {α : Type} {text : String} {f : NoteId → Action ApiError α}
    (hf : ∀ id, Keeps P (f id)) : Keeps P (noteId text >>= f) := by
  rw [noteId]
  cases NoteId.read? text with
  | none => exact keeps_of_eq fun _ => ⟨rfl, rfl⟩
  | some id => exact hf id

include h

theorem Client.keeps_send_bare {c : Client} {method : Method} (hmethod : method ∈ [.get, .delete])
    {segments : List String} (hplain : IsPlain segments) (query : List (String × String)) :
    Keeps P (c.send method segments query none) := by
  refine keeps_send ⟨method, segments, query, none⟩ hplain fun before x hrequest => h before x ?_
  rw [(Call.method_body_of_request? hrequest).1]
  simpa using hmethod

theorem Client.keeps_getNote {c : Client} (text : String) : Keeps P (c.getNote text) :=
  keeps_noteId_bind fun id =>
    (keeps_send_bare h (by decide) (isPlain_note id (by decide)) []).bind fun reply =>
      keeps_decodeReply Note.decode reply

theorem Client.keeps_getContent {c : Client} (text : String) : Keeps P (c.getContent text) :=
  keeps_noteId_bind fun id =>
    (keeps_send_bare h (by decide) (isPlain_note id (by decide)) []).bind fun _ => keeps_pure _

namespace Service

variable (s : Service)

theorem keeps_search (r : SearchRequest) : Keeps P (s.search r) := by
  unfold search
  have hcompile : Keeps P (s.compileSearch r) :=
    keeps_of_eq fun t => by rw [s.run_compileSearch r t]; exact ⟨rfl, rfl⟩
  refine hcompile.bind fun p => ?_
  have hsearch : Keeps P (s.client.searchNotes p.1) :=
    (Client.keeps_send_bare h (by decide) isPlain_notes _).bind fun reply =>
      keeps_decodeReply SearchResults.decode reply
  exact (hsearch.mapError _).bind fun results => (keeps_report _).bind fun _ => keeps_pure _

theorem keeps_get (r : GetRequest) : Keeps P (s.get r) := by
  unfold get
  refine ((Client.keeps_getNote h r.noteId).mapError _).bind fun note => ?_
  cases r.includeContent with
  | true =>
    refine (((Client.keeps_getContent h note.noteId).mapError _).map _).bind fun content => ?_
    exact (keeps_report _).bind fun _ => keeps_pure _
  | false => exact (keeps_report _).bind fun _ => keeps_pure _

theorem keeps_delete (r : DeleteRequest) : Keeps P (s.delete r) := by
  unfold delete
  refine keeps_ofExcept_bind fun id _ => ?_
  by_cases hroot : id = NoteId.root
  · rw [if_pos hroot]
    exact keeps_of_eq fun _ => ⟨rfl, rfl⟩
  · rw [if_neg hroot]
    have hdelete : Keeps P (s.client.deleteNote id.text) :=
      Client.keeps_noteId_bind fun id =>
        (Client.keeps_send_bare h (by decide) (isPlain_note id (by decide)) []).bind fun _ =>
          keeps_pure _
    exact (hdelete.mapError _).bind fun _ => (keeps_report _).bind fun _ => keeps_pure _

theorem keeps_checkConnection : Keeps P s.checkConnection := by
  unfold checkConnection
  have hinfo : Keeps P s.client.appInfo :=
    (Client.keeps_send_bare h (by decide) isPlain_appInfo []).bind fun reply =>
      keeps_decodeReply AppInfo.decode reply
  exact (hinfo.mapError _).bind fun info => (keeps_report _).bind fun _ => keeps_pure _

end Service

end

/-! ## Runs -/

/-- **Exchanges of a run.** A condition that every call keeps holds along all that a run
exchanges. -/
theorem Service.runCalls_keeps {s : Service} {P : Option Exchange → Exchange → Prop}
    (h : ∀ call : ServiceCall, Action.Keeps P (call.perform s)) (calls : List ServiceCall)
    (t : Session) (before : Option Exchange) :
    ∃ xs, t.Exchanged (s.runCalls calls t).2 xs ∧ HoldsAlong P before xs := by
  induction calls generalizing t before with
  | nil => exact ⟨[], .nil rfl rfl, trivial⟩
  | cons call calls ih =>
    obtain ⟨xs, hxs, hP⟩ := h call t before
    obtain ⟨ys, hys, hP'⟩ := ih (Action.run (call.perform s) t).2 (xs.getLast?.or before)
    exact ⟨xs ++ ys, hxs.append hys, holdsAlong_append.mpr ⟨hP, hP'⟩⟩

end NoteTools
