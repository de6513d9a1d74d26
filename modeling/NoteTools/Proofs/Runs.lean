import NoteTools.Proofs.Exchange
import NoteTools.Service.Connection
import NoteTools.Service.Create
import NoteTools.Service.Delete
import NoteTools.Service.Get
import NoteTools.Service.Search
import NoteTools.Service.Update

/-!
# Runs of the service

A run is a list of calls of the service, made one after another in one session. Every call starts in
the session that the one before it has left.

Main definitions:

* `ServiceCall`, `ServiceAnswer`: a call of the service, and what it gives;
* `ServiceCall.perform`, `Service.runCalls`: carrying out a call, and a list of them;
* `Action.Sends`: whatever an action sends satisfies a condition.

Results:

* `Action.Sends.bind`, `Action.sends_send`: actions after one another, and a call of the note
  server;
* `Service.runCalls_sends`: a condition that every call keeps holds of all requests of a run.
-/

namespace NoteTools

open Http

/-! ## What actions send -/

namespace Action

variable {ε δ α β : Type} {P : Request → Prop}

/-- Whatever an action sends satisfies a condition. -/
def Sends (P : Request → Prop) (a : Action ε α) : Prop :=
  ∀ t, ∃ sent, (run a t).2.requests = t.requests ++ sent ∧ ∀ request ∈ sent, P request

/-- An action that leaves the requests as they are sends nothing. -/
theorem sends_of_requests_eq {a : Action ε α} (h : ∀ t, (run a t).2.requests = t.requests) :
    Sends P a :=
  fun t => ⟨[], by rw [h, List.append_nil], by simp⟩

theorem sends_pure (x : α) : Sends P (pure x : Action ε α) :=
  sends_of_requests_eq fun _ => rfl

theorem sends_throw (e : ε) : Sends P (throw e : Action ε α) :=
  sends_of_requests_eq fun _ => rfl

theorem sends_ofExcept (r : Except ε α) : Sends P (ofExcept r) :=
  sends_of_requests_eq fun _ => rfl

theorem sends_report (e : Event) : Sends P (report e : Action ε Unit) :=
  sends_of_requests_eq fun _ => rfl

/-- Actions after one another send what each of them sends. -/
theorem Sends.bind {a : Action ε α} {f : α → Action ε β} (ha : Sends P a)
    (hf : ∀ x, Sends P (f x)) : Sends P (a >>= f) := by
  intro t
  obtain ⟨sent, hsent, hP⟩ := ha t
  rw [run_bind]
  cases hrun : run a t with
  | mk result u =>
    rw [hrun] at hsent
    cases result with
    | error e => exact ⟨sent, hsent, hP⟩
    | ok x =>
      obtain ⟨more, hmore, hP'⟩ := hf x u
      refine ⟨sent ++ more, ?_, ?_⟩
      · dsimp only at hsent ⊢
        rw [hmore, hsent, List.append_assoc]
      · intro request hrequest
        exact (List.mem_append.mp hrequest).elim (hP request) (hP' request)

theorem Sends.map {a : Action ε α} (ha : Sends P a) (f : α → β) : Sends P (f <$> a) := by
  rw [← bind_pure_comp]
  exact ha.bind fun x => sends_pure (f x)

theorem Sends.mapError {a : Action ε α} (ha : Sends P a) (f : ε → δ) : Sends P (mapError f a) := by
  intro t
  rw [run_mapError]
  exact ha t

/-- A call of the note server sends its request. -/
theorem sends_send {c : Client} (call : Call) (hplain : IsPlain call.segments)
    (h : ∀ e, c.ready? = some e → P (call.request c e)) :
    Sends P (c.send call.method call.segments call.query call.body) := by
  intro t
  rw [Client.run_send c call hplain]
  cases hexchange : call.exchange c t.server with
  | error error => exact ⟨[], (List.append_nil _).symm, by simp⟩
  | ok answer =>
    obtain ⟨x, server⟩ := answer
    obtain ⟨e, he, hrequest⟩ := Option.map_eq_some_iff.mp (Call.exchange_eq_ok hexchange).1
    refine ⟨[x.request], rfl, ?_⟩
    intro request hmem
    rw [List.mem_singleton.mp hmem, ← hrequest]
    exact h e he

theorem sends_decodeReply (d : Json.Decoder α) (reply : Reply) :
    Sends P (Client.decodeReply d reply) :=
  sends_of_requests_eq fun t => by rw [Client.run_decodeReply]

end Action

/-! ## Calls of the service -/

/-- A call of the service. -/
inductive ServiceCall where
  /-- Finds notes. -/
  | search (r : SearchRequest)
  /-- Reads a note. -/
  | get (r : GetRequest)
  /-- Creates a note. -/
  | create (r : CreateRequest)
  /-- Changes a note. -/
  | update (r : UpdateRequest)
  /-- Deletes a note. -/
  | delete (r : DeleteRequest)
  /-- Asks the server what it is. -/
  | checkConnection

/-- What a call of the service gives. -/
inductive ServiceAnswer where
  /-- The notes found. -/
  | found (r : SearchResponse)
  /-- The note read. -/
  | read (v : NoteView)
  /-- The note created. -/
  | created (n : PlacedNote)
  /-- What was changed. -/
  | updated (r : UpdateResponse)
  /-- The note deleted. -/
  | deleted (r : DeleteResponse)
  /-- What the server is. -/
  | connected (i : AppInfo)

/-- Carries out a call of the service. -/
def ServiceCall.perform (s : Service) : ServiceCall → ServiceAction ServiceAnswer
  | .search r => .found <$> s.search r
  | .get r => .read <$> s.get r
  | .create r => .created <$> s.create r
  | .update r => .updated <$> s.update r
  | .delete r => .deleted <$> s.delete r
  | .checkConnection => .connected <$> s.checkConnection

namespace Service

/-- Carries out calls in order: what each of them gives, and the session after the last one. -/
def runCalls (s : Service) :
    List ServiceCall → Session → List (Except ServiceError ServiceAnswer) × Session
  | [], t => ([], t)
  | call :: calls, t =>
    let (answer, next) := (call.perform s).run t
    let (answers, last) := s.runCalls calls next
    (answer :: answers, last)

/-- **Runs.** A condition that holds of whatever a call sends holds of all that a run sends. -/
theorem runCalls_sends {s : Service} {P : Request → Prop}
    (h : ∀ call : ServiceCall, Action.Sends P (call.perform s)) (calls : List ServiceCall)
    (t : Session) : ∃ sent,
      (s.runCalls calls t).2.requests = t.requests ++ sent ∧ ∀ request ∈ sent, P request := by
  induction calls generalizing t with
  | nil => exact ⟨[], (List.append_nil _).symm, by simp⟩
  | cons call calls ih =>
    obtain ⟨sent, hsent, hP⟩ := h call t
    obtain ⟨more, hmore, hP'⟩ := ih (Action.run (call.perform s) t).2
    refine ⟨sent ++ more, ?_, ?_⟩
    · show (s.runCalls calls (Action.run (call.perform s) t).2).2.requests = _
      rw [hmore, hsent, List.append_assoc]
    · intro request hrequest
      exact (List.mem_append.mp hrequest).elim (hP request) (hP' request)

end Service

end NoteTools
