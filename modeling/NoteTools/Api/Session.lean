import NoteTools.Event
import NoteTools.Http.Message

/-!
# Sessions

A session is a server, the requests that have reached it, and the events reported on the way. An
action works on a session and gives a value or an error; what it has done to the session stays done
either way.

Main definitions:

* `Session`, `Action`;
* `Action.report`, `Action.exchange`: reporting an event, and sending a request;
* `Action.run`: the value, or the error, and the session after it.
-/

namespace NoteTools

/-- A server, what has reached it, and what has been reported. -/
structure Session where
  /-- The server. -/
  server : Http.Server
  /-- The requests that have reached it, in order. -/
  requests : List Http.Request
  /-- The events reported, in order. -/
  events : List Event

/-- A session with a server to which nothing has been sent. -/
def Session.start (server : Http.Server) : Session :=
  ⟨server, [], []⟩

/-- Works on a session. -/
abbrev Action (ε α : Type) := ExceptT ε (StateM Session) α

namespace Action

/-- The value or the error of an action, and the session after it. -/
def run {ε α : Type} (a : Action ε α) (s : Session) : Except ε α × Session :=
  StateT.run (ExceptT.run a) s

/-- The action of a value or an error. -/
def ofExcept {ε α : Type} (r : Except ε α) : Action ε α :=
  ExceptT.mk (pure r)

/-- The action with its errors changed. -/
def mapError {ε δ α : Type} (f : ε → δ) (a : Action ε α) : Action δ α :=
  ExceptT.mk fun s =>
    match a.run s with
    | (.ok x, t) => (.ok x, t)
    | (.error e, t) => (.error (f e), t)

/-- Reports an event. -/
def report {ε : Type} (e : Event) : Action ε Unit :=
  ExceptT.mk fun s => (.ok (), { s with events := s.events ++ [e] })

/-- Sends a request: the reply that this one sending ends in, unless the server cannot be reached.
No redirection is followed in between. -/
def exchange {ε : Type} (request : Http.Request) : Action ε (Option Http.Reply) :=
  ExceptT.mk fun s =>
    match s.server.answer with
    | some (reply, server) =>
      (.ok (some reply), { s with server, requests := s.requests ++ [request] })
    | none => (.ok none, s)

end Action

end NoteTools
