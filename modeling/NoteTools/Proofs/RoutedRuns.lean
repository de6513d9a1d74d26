import NoteTools.Proofs.Routes
import NoteTools.Proofs.Runs
import NoteTools.Proofs.SearchPlan

/-!
# All requests are for routes

Whatever is asked of the service, and whatever the note server replies, each request that is sent is
for one route of the interface, with a method of that route. Neither a text of a request nor a text
of a reply adds a segment, a query or a fragment to a request line, and the note at the root of the
tree is never deleted.

Main definitions:

* `Client.Routed`: a request for some route.

Results:

* `ServiceCall.sends_routed`: what one call of the service sends;
* `Service.runCalls_routed`: what a run sends.
-/

namespace NoteTools

open Http NoteTools.Action

/-! ## Calls of the note server -/

namespace Client

/-- A request for some route. -/
def Routed (c : Client) (request : Request) : Prop :=
  ∃ route, c.Asks route request

variable {c : Client} {α : Type}

/-- A call of a route sends a request for it. -/
theorem sends_route (h : c.HasPlainBase) (route : Route) {method : Method}
    (hmethod : method ∈ route.methods) (body : Option Body) :
    Sends c.Routed (c.send method route.segments route.pairs body) :=
  sends_send ⟨method, route.segments, route.pairs, body⟩ route.isPlain_segments fun _ he =>
    ⟨route, asks_of_call h he hmethod rfl rfl⟩

/-- The id that a text spells, and a call with it. -/
theorem sends_noteId_bind {P : Request → Prop} {text : String} {f : NoteId → Action ApiError α}
    (hf : ∀ id, NoteId.read? text = some id → Sends P (f id)) : Sends P (noteId text >>= f) := by
  rw [noteId]
  cases hread : NoteId.read? text with
  | none => exact sends_throw (ApiError.badNoteId text)
  | some id => exact hf id hread

theorem get_mem_methods (id : NoteId) : Method.get ∈ (Route.note id).methods := by
  rw [Route.methods]
  split <;> decide

theorem patch_mem_methods (id : NoteId) : Method.patch ∈ (Route.note id).methods := by
  rw [Route.methods]
  split <;> decide

/-- Any note but the one at the root can be deleted. -/
theorem delete_mem_methods {id : NoteId} (h : id ≠ NoteId.root) :
    Method.delete ∈ (Route.note id).methods := by
  rw [Route.methods, if_neg h]
  decide

theorem sends_searchNotes (h : c.HasPlainBase) (p : SearchParams) :
    Sends c.Routed (c.searchNotes p) :=
  (sends_route h (.search p) (List.mem_singleton_self _) none).bind fun reply =>
    sends_decodeReply SearchResults.decode reply

theorem sends_getNote (h : c.HasPlainBase) (text : String) : Sends c.Routed (c.getNote text) :=
  sends_noteId_bind fun id _ =>
    (sends_route h (.note id) (get_mem_methods id) none).bind fun reply =>
      sends_decodeReply Note.decode reply

theorem sends_getContent (h : c.HasPlainBase) (text : String) :
    Sends c.Routed (c.getContent text) :=
  sends_noteId_bind fun id _ =>
    (sends_route h (.content id) List.mem_cons_self none).bind fun _ => sends_pure _

theorem sends_createNote (h : c.HasPlainBase) (n : NewNote) : Sends c.Routed (c.createNote n) :=
  (sends_route h .newNote (List.mem_singleton_self _) (some (.json n.toJson))).bind fun reply =>
    sends_decodeReply PlacedNote.decode reply

theorem sends_patchNote (h : c.HasPlainBase) (text : String) (p : NotePatch) :
    Sends c.Routed (c.patchNote text p) :=
  sends_noteId_bind fun id _ =>
    (sends_route h (.note id) (patch_mem_methods id) (some (.json p.toJson))).bind fun reply =>
      sends_decodeReply Note.decode reply

theorem sends_putContent (h : c.HasPlainBase) (text content : String) :
    Sends c.Routed (c.putContent text content) :=
  sends_noteId_bind fun id _ =>
    (sends_route h (.content id) (List.mem_cons_of_mem _ List.mem_cons_self)
      (some ⟨"text/plain", content⟩)).bind fun _ => sends_pure _

theorem sends_createRevision (h : c.HasPlainBase) (text : String) :
    Sends c.Routed (c.createRevision text) :=
  sends_noteId_bind fun id _ =>
    (sends_route h (.revision id) (List.mem_singleton_self _) none).bind fun _ => sends_pure _

theorem sends_deleteNote (h : c.HasPlainBase) {text : String}
    (hroot : NoteId.read? text ≠ some NoteId.root) : Sends c.Routed (c.deleteNote text) :=
  sends_noteId_bind fun id hid =>
    (sends_route h (.note id) (delete_mem_methods fun heq => hroot (heq ▸ hid)) none).bind
      fun _ => sends_pure _

theorem sends_appInfo (h : c.HasPlainBase) : Sends c.Routed c.appInfo :=
  (sends_route h .appInfo (List.mem_singleton_self _) none).bind fun reply =>
    sends_decodeReply AppInfo.decode reply

end Client

/-! ## Calls of the service -/

section
variable {s : Service}

theorem Service.sends_compileSearch {P : Request → Prop} (r : SearchRequest) :
    Sends P (s.compileSearch r) :=
  sends_of_requests_eq fun t => by rw [s.run_compileSearch r t]

theorem Service.sends_checkNewType (h : s.client.HasPlainBase) (id : NoteId) (p : NotePatch) :
    Sends s.client.Routed (s.checkNewType id p) := by
  unfold Service.checkNewType
  cases p.kind with
  | none => exact sends_pure ()
  | some kind =>
    cases p.mime with
    | some mime => exact sends_ofExcept _
    | none =>
      exact (((Client.sends_getNote h id.text).mapError _).map _).bind fun _ => sends_ofExcept _

theorem Service.sends_applyPatch (h : s.client.HasPlainBase) (id : NoteId) (p : NotePatch) :
    Sends s.client.Routed (s.applyPatch id p) := by
  unfold Service.applyPatch
  split
  · exact sends_pure []
  · exact ((Client.sends_patchNote h id.text p).mapError _).bind fun _ => sends_pure _

theorem Service.sends_replaceContent (h : s.client.HasPlainBase) (id : NoteId)
    (content : Option String) (createRevision : Bool) :
    Sends s.client.Routed (s.replaceContent id content createRevision) := by
  have hput (text : String) : Sends s.client.Routed (do
      ServiceAction.call (s.client.putContent id.text text)
      return createRevision : ServiceAction Bool) :=
    ((Client.sends_putContent h id.text text).mapError _).bind fun _ => sends_pure _
  unfold Service.replaceContent
  split
  · exact sends_pure false
  · split
    · exact ((Client.sends_createRevision h id.text).mapError _).bind fun _ => hput _
    · exact hput _

/-- A check that throws, and what is done unless it does. -/
theorem sends_unless_throw {P : Request → Prop} {α : Type} {p : Prop} [Decidable p]
    {e : ServiceError} {rest : ServiceAction α} (h : ¬p → Sends P rest) :
    Sends P (if p then (do let x ← throw e; (fun _ : Unit => rest) x) else rest) := by
  by_cases hp : p
  · rw [if_pos hp]
    exact sends_of_requests_eq fun _ => rfl
  · rw [if_neg hp]
    exact h hp

namespace Service

theorem sends_search (h : s.client.HasPlainBase) (r : SearchRequest) :
    Sends s.client.Routed (s.search r) := by
  unfold search
  refine (sends_compileSearch r).bind fun p => ?_
  refine ((Client.sends_searchNotes h p.1).mapError _).bind fun results => ?_
  exact (sends_report _).bind fun _ => sends_pure _

theorem sends_get (h : s.client.HasPlainBase) (r : GetRequest) :
    Sends s.client.Routed (s.get r) := by
  unfold get
  refine ((Client.sends_getNote h r.noteId).mapError _).bind fun note => ?_
  -- The content is asked for under the id of the reply, which is read as any other text.
  cases r.includeContent with
  | true =>
    refine (((Client.sends_getContent h note.noteId).mapError _).map _).bind fun content => ?_
    exact (sends_report _).bind fun _ => sends_pure _
  | false => exact (sends_report _).bind fun _ => sends_pure _

theorem sends_create (h : s.client.HasPlainBase) (r : CreateRequest) :
    Sends s.client.Routed (s.create r) := by
  unfold create
  refine (sends_ofExcept r.newNote).bind fun new => ?_
  refine ((Client.sends_createNote h new).mapError _).bind fun created => ?_
  exact (sends_report _).bind fun _ => sends_pure _

theorem sends_update (h : s.client.HasPlainBase) (r : UpdateRequest) :
    Sends s.client.Routed (s.update r) := by
  unfold update
  refine (sends_ofExcept (checkNoteId r.noteId)).bind fun id => ?_
  refine (sends_ofExcept r.patch).bind fun patch => ?_
  refine sends_unless_throw fun _ => ?_
  refine (sends_checkNewType h id patch).bind fun _ => ?_
  refine (sends_applyPatch h id patch).bind fun changed => ?_
  refine (sends_replaceContent h id r.content r.createRevision).bind fun revised => ?_
  exact (sends_report _).bind fun _ => sends_pure _

theorem sends_delete (h : s.client.HasPlainBase) (r : DeleteRequest) :
    Sends s.client.Routed (s.delete r) := by
  unfold delete
  refine (sends_ofExcept (checkNoteId r.noteId)).bind fun id => ?_
  refine sends_unless_throw fun hroot => ?_
  have hread : NoteId.read? id.text ≠ some NoteId.root := by
    rw [id.read?_text]
    exact fun heq => hroot (Option.some.inj heq)
  refine ((Client.sends_deleteNote h hread).mapError _).bind fun _ => ?_
  exact (sends_report _).bind fun _ => sends_pure _

theorem sends_checkConnection (h : s.client.HasPlainBase) :
    Sends s.client.Routed s.checkConnection := by
  unfold checkConnection
  refine ((Client.sends_appInfo h).mapError _).bind fun info => ?_
  exact (sends_report _).bind fun _ => sends_pure _

end Service

/-- Whatever one call of the service sends is for a route. -/
theorem ServiceCall.sends_routed (h : s.client.HasPlainBase) (call : ServiceCall) :
    Sends s.client.Routed (call.perform s) := by
  cases call with
  | search r => exact (s.sends_search h r).map _
  | get r => exact (s.sends_get h r).map _
  | create r => exact (s.sends_create h r).map _
  | update r => exact (s.sends_update h r).map _
  | delete r => exact (s.sends_delete h r).map _
  | checkConnection => exact (s.sends_checkConnection h).map _

end

/-! ## Runs -/

/-- **All requests of a run are for routes.** Each is for exactly one route of the interface, with a
method of that route, and none deletes the note at the root. -/
theorem Service.runCalls_routed (s : Service) (h : s.client.HasPlainBase) (server : Server)
    (calls : List ServiceCall) :
    ∀ request ∈ (s.runCalls calls (.start server)).2.requests,
      (∃! route, s.client.Asks route request) ∧
        (request.method = .delete → request.target ≠ s.client.path ++ "/notes/root") := by
  intro request hrequest
  obtain ⟨sent, hsent, hrouted⟩ :=
    s.runCalls_sends (ServiceCall.sends_routed h) calls (.start server)
  obtain ⟨route, hroute⟩ := hrouted request (by
    rw [hsent] at hrequest
    exact (List.mem_append.mp hrequest).resolve_left List.not_mem_nil)
  refine ⟨⟨route, hroute, fun route' hroute' => hroute'.unique hroute⟩, ?_⟩
  intro hmethod htarget
  obtain rfl : route = .note NoteId.root := hroute.eq_of_target htarget
  have hmem := hroute.method
  rw [hmethod] at hmem
  exact absurd hmem (by decide)

/-- A service whose server is at a local address. -/
def gateService : Service :=
  ⟨⟨"http://gate:8080/etapi/", "etapi-token"⟩, 200, false⟩

/-- Calls whose texts would be more than one segment, or the note at the root. -/
def gateCalls : List ServiceCall :=
  [.get { noteId := " n1 " }, .get { noteId := "n1/../root" }, .delete ⟨"\troot\n"⟩,
    .search { text := some "a&b#c" }, .delete ⟨"n2"⟩]

/-- A server that gives a note the id of another place. -/
def gateServer : Server :=
  ⟨[⟨200, none, Text.Utf8.encode "\x7b\"noteId\":\"../root?x\"\x7d"⟩,
    ⟨200, none, Text.Utf8.encode "\x7b\"results\":[]\x7d"⟩, ⟨204, none, []⟩], none⟩

theorem runCalls_routed_gate :
    gateService.client.HasPlainBase ∧
      (gateService.runCalls gateCalls (.start gateServer)).2.requests.map
          (fun request => (request.method, request.target)) =
        [(.get, "/etapi/notes/n1"),
          (.get, "/etapi/notes?search=a%26b%23c&fastSearch=false&includeArchivedNotes=false"),
          (.delete, "/etapi/notes/n2")] ∧
      ∀ request ∈ (gateService.runCalls gateCalls (.start gateServer)).2.requests,
        (∃! route, gateService.client.Asks route request) ∧
          (request.method = .delete → request.target ≠ gateService.client.path ++ "/notes/root") :=
  have h : gateService.client.HasPlainBase := by decide
  ⟨h, by decide +kernel, gateService.runCalls_routed h gateServer gateCalls⟩

end NoteTools
