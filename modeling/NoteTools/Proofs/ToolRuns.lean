import NoteTools.Proofs.Exchange
import NoteTools.Proofs.NoteText
import NoteTools.Proofs.ToolArguments

/-!
# Tools carry out requests

A call of a tool decodes its arguments and has the service carry out the request: it sends what the
service sends, and answers what the service gives. The caller's own fault is an error of the
protocol; what goes wrong at the note server is an answer that is marked as failed.

Main definitions:

* `Tool.Response`, `Tool.serve`, `Tool.toJson`: what the service gives for the request of a tool;
* `ToolResult.Shown`: the text of an answer is its value;
* `Tool.Answers`: how a tool answers what the service gives;
* `Service.Carries`: a call of a tool carries out the decoded request.

Results:

* `Tool.exact_toJson`: the numbers of an answer are whole and have at most 64 bits;
* `Action.run_respond`: a response leaves the session as the service does, apart from events;
* `Service.callTool_carries`: every call of a tool carries out the decoded request.
-/

namespace NoteTools

open Json

/-! ## What the service gives -/

namespace Tool

/-- What the service gives for the request of a tool. -/
def Response : Tool → Type
  | .createNote => PlacedNote
  | .deleteNote => DeleteResponse
  | .getNote => NoteView
  | .searchNotes => SearchResponse
  | .updateNote => UpdateResponse

/-- The service carries out the request of a tool. -/
def serve (s : Service) : (t : Tool) → t.Request → ServiceAction t.Response
  | .createNote => s.create
  | .deleteNote => s.delete
  | .getNote => s.get
  | .searchNotes => s.search
  | .updateNote => s.update

/-- The object of what the service gives. -/
def toJson : (t : Tool) → t.Response → Json
  | .createNote => PlacedNote.toJson
  | .deleteNote => DeleteResponse.toJson
  | .getNote => NoteView.toJson
  | .searchNotes => SearchResponse.toJson
  | .updateNote => UpdateResponse.toJson

theorem perform_eq (s : Service) (t : Tool) (r : t.Request) :
    t.perform s r = t.toJson <$> t.serve s r := by
  cases t <;> rfl

theorem ofName?_name (t : Tool) : ofName? t.name = some t := by
  cases t <;> decide

/-- The numbers of an answer are whole and have at most 64 bits. -/
theorem exact_toJson (t : Tool) (r : t.Response) : Exact (t.toJson r) := by
  cases t with
  | createNote => exact PlacedNote.exact_toJson r
  | deleteNote => exact ⟨trivial, trivial, trivial⟩
  | getNote => exact ⟨Note.exact_toJson r.note, exactMembers_textMember? _ _⟩
  | searchNotes =>
    have hresults : Exact (.arr (r.results.map Note.toJson)) :=
      exact_arr_map fun n _ => n.exact_toJson
    exact ⟨trivial, trivial, trivial, hresults, exact_strs _, trivial⟩
  | updateNote => exact ⟨trivial, exact_strs _, trivial, trivial⟩

end Tool

/-! ## Answers -/

namespace Json

mutual

/-- Putting members in order changes no number. -/
theorem exact_sorted {j : Json} (h : Exact j) : Exact (sorted j) := by
  cases j with
  | null | bool b | num n | str s => exact h
  | arr items => exact exactItems_sortedItems h
  | obj members =>
    refine exactMembers_iff.mpr fun m hm => ?_
    exact exactMembers_iff.mp (exactMembers_sortedMembers h) m (mem_of_mem_sortMembers hm)

theorem exactItems_sortedItems {items : List Json} (h : ExactItems items) :
    ExactItems (sortedItems items) := by
  cases items with
  | nil => trivial
  | cons j items => exact ⟨exact_sorted h.1, exactItems_sortedItems h.2⟩

theorem exactMembers_sortedMembers {members : List (String × Json)} (h : ExactMembers members) :
    ExactMembers (sortedMembers members) := by
  cases members with
  | nil => trivial
  | cons m members => exact ⟨exact_sorted h.1, exactMembers_sortedMembers h.2⟩

end

end Json

/-- The answer as texts is one text, and it is parsed as the answer as a value. The members of its
objects stand in the order of their keys in both. -/
def ToolResult.Shown (result : ToolResult) : Prop :=
  ∃ text, result.content = [text] ∧ parse text = .ok result.structured

theorem ToolResult.shown_ofJson (isError : Bool) {j : Json} (h : Exact j) :
    (ofJson isError j).Shown :=
  ⟨(sorted j).text, rfl, parse_text (exact_sorted h)⟩

/-- An answer that is marked as failed, with a code and a message. -/
structure ToolResult.Failure (result : ToolResult) (code message : String) : Prop where
  isError : result.isError = true
  structured : result.structured = .obj [("error_code", .str code), ("message", .str message)]
  shown : result.Shown

/-- How a tool answers what the service gives: a response by its object, with its members in the
order of their keys, the caller's fault by an error of the protocol, and a failure of the note
server by an answer that is marked as failed. -/
def Tool.Answers (t : Tool) :
    Except ServiceError t.Response → Except ProtocolError ToolResult → Prop
  | .ok r, answer => ∃ result, answer = .ok result ∧
      result.isError = false ∧ result.structured = sorted (t.toJson r) ∧ result.Shown
  | .error (.invalidRequest fault), answer =>
    answer = .error ⟨-32602, (ServiceError.invalidRequest fault).message⟩
  | .error (.date e), answer => answer = .error ⟨-32602, (ServiceError.date e).message⟩
  | .error (.notFound message), answer => ∃ result, answer = .ok result ∧
      result.Failure "NOT_FOUND" (ServiceError.notFound message).message
  | .error (.serverFailure e), answer => ∃ result, answer = .ok result ∧
      result.Failure "UPSTREAM_ERROR" (ServiceError.serverFailure e).message

/-! ## Runs -/

namespace Action

theorem run_respond (a : ServiceAction Json) (u : Session) :
    run (respond a) u = match run a u with
      | (.ok j, v) => (.ok (.ofJson false j), v)
      | (.error e, v) => run (answerError e) v :=
  rfl

end Action

/-- The answer to a failed request, which is reported when the server is at fault. -/
theorem Tool.answers_error (t : Tool) (e : ServiceError) (u : Session) :
    t.Answers (.error e) (Action.run (answerError e) u).1 ∧
      ∃ reported, (Action.run (answerError e) u).2 = { u with events := u.events ++ reported } := by
  have hfailure (code message : String) :
      (ToolResult.ofJson true (.obj [("error_code", .str code), ("message", .str message)])).Failure
        code message :=
    ⟨rfl, rfl, ToolResult.shown_ofJson true ⟨trivial, trivial, trivial⟩⟩
  -- Only a failure of the server is reported.
  have hquiet : u = { u with events := u.events ++ [] } := by rw [List.append_nil]
  cases e with
  | invalidRequest fault => exact ⟨rfl, [], hquiet⟩
  | date e => exact ⟨rfl, [], hquiet⟩
  | notFound message => exact ⟨⟨_, rfl, hfailure _ _⟩, [_], rfl⟩
  | serverFailure e => exact ⟨⟨_, rfl, hfailure _ _⟩, [_], rfl⟩

/-- What a tool answers when its request is carried out, and the session then: that of the service,
with more events at most. -/
theorem Tool.answers_respond (s : Service) (t : Tool) (r : t.Request) (u : Session) :
    t.Answers (Action.run (t.serve s r) u).1 (Action.run (respond (t.perform s r)) u).1 ∧
      ∃ reported, (Action.run (respond (t.perform s r)) u).2 =
        { (Action.run (t.serve s r) u).2 with
          events := (Action.run (t.serve s r) u).2.events ++ reported } := by
  rw [Action.run_respond, perform_eq, Action.run_map]
  obtain ⟨_ | response, v⟩ := Action.run (t.serve s r) u
  · exact t.answers_error _ v
  · refine ⟨⟨_, rfl, rfl, rfl, ToolResult.shown_ofJson false (t.exact_toJson response)⟩, [], ?_⟩
    rw [List.append_nil]
    rfl

/-- A call of a tool in a session carries out the decoded request. -/
structure Service.Carries (s : Service) (t : Tool) (arguments : Json) (u : Session) : Prop where
  /-- Arguments that are not decoded are answered as invalid, and the session is as it was. -/
  undecoded : ∀ e, decodeValue t.decoder arguments = .error e →
    Action.run (s.callTool t.name arguments) u =
      (.error ⟨-32602, "Invalid arguments: " ++ e.message⟩, u)
  /-- What is sent is what the service sends for the decoded request. -/
  requests : ∀ r, decodeValue t.decoder arguments = .ok r →
    (Action.run (s.callTool t.name arguments) u).2.requests =
      (Action.run (t.serve s r) u).2.requests
  /-- The same replies are taken from the server. -/
  server : ∀ r, decodeValue t.decoder arguments = .ok r →
    (Action.run (s.callTool t.name arguments) u).2.server = (Action.run (t.serve s r) u).2.server
  /-- What the service gives is answered. -/
  answer : ∀ r, decodeValue t.decoder arguments = .ok r →
    t.Answers (Action.run (t.serve s r) u).1 (Action.run (s.callTool t.name arguments) u).1

/-- **Tools carry out requests.** Every call of a tool, with any arguments and in any session, does
and answers what the service does and gives for the decoded request. -/
theorem Service.callTool_carries (s : Service) (t : Tool) (arguments : Json) (u : Session) :
    s.Carries t arguments u := by
  have hcall : s.callTool t.name arguments = t.call s arguments := by
    rw [callTool, t.ofName?_name]
  have hdecoded (r : t.Request) (hr : decodeValue t.decoder arguments = .ok r) :
      s.callTool t.name arguments = respond (t.perform s r) := by
    rw [hcall, t.call_eq, decodeAndRespond, hr]
  constructor
  · intro e he
    rw [hcall, t.call_eq, decodeAndRespond, he]
    rfl
  · intro r hr
    obtain ⟨-, reported, hsession⟩ := t.answers_respond s r u
    rw [hdecoded r hr, hsession]
  · intro r hr
    obtain ⟨-, reported, hsession⟩ := t.answers_respond s r u
    rw [hdecoded r hr, hsession]
  · intro r hr
    rw [hdecoded r hr]
    exact (t.answers_respond s r u).1

end NoteTools
