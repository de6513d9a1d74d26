/-!
# Requests, replies and servers

A request as it reaches the server, a reply as it comes back, and a server that answers requests in
order. A server that gives no answer is one that cannot be reached.

A request is one sending, and its reply is the one that the sending ends in. It is assumed that a
sending is not redirected: where one is, the hops in between are neither requests nor replies here,
and the server that answers stands for all that were asked.

Main definitions:

* `Method`, `Request`, `Reply`;
* `Server`, `Server.answer`;
* `isHeaderText`: the texts that can stand in a header.
-/

namespace NoteTools.Http

/-- The method of a request. -/
inductive Method where
  | get | post | put | patch | delete
  deriving DecidableEq, Repr

/-- The name of a method. -/
def Method.name : Method → String
  | .get => "GET"
  | .post => "POST"
  | .put => "PUT"
  | .patch => "PATCH"
  | .delete => "DELETE"

/-- A request as it reaches the server: one sending. -/
structure Request where
  /-- The method. -/
  method : Method
  /-- The path and the query. -/
  target : String
  /-- The value of the authorization header. -/
  authorization : String
  /-- The type of the body. -/
  contentType : Option String
  /-- The body. -/
  body : String
  deriving DecidableEq, Repr

/-- A reply: what a sending ends in. -/
structure Reply where
  /-- The status. -/
  status : Nat
  /-- The type of the body. -/
  contentType : Option String
  /-- The octets of the body. -/
  body : List UInt8
  deriving DecidableEq, Repr

/-- The status says that the request was carried out. -/
def Reply.isSuccess (r : Reply) : Bool :=
  200 ≤ r.status && r.status < 300

/-- The octets that a client gets: replies without content and unchanged ones have none. -/
def Reply.content (r : Reply) : List UInt8 :=
  if r.status = 204 ∨ r.status = 304 then [] else r.body

/-- A server, by its answers to come. -/
structure Server where
  /-- The answers to the next requests. -/
  replies : List Reply
  /-- The answer to every request after those; without one the server cannot be reached. -/
  further : Option Reply

/-- A server that cannot be reached. -/
def Server.unreachable : Server := ⟨[], none⟩

/-- The answer to the next request, and the server after it. -/
def Server.answer (s : Server) : Option (Reply × Server) :=
  match s.replies with
  | r :: replies => some (r, { s with replies })
  | [] => s.further.map fun r => (r, s)

/-- A text that can be the value of a header: no control character but the tab, and no DEL. -/
def isHeaderText (s : String) : Bool :=
  s.toList.all fun c => c == '\t' || (0x20 ≤ c.toNat && c.toNat != 0x7F)

end NoteTools.Http
