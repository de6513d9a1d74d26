import NoteTools.Proofs.Exchange
import NoteTools.Proofs.RequestLine

/-!
# Routes

The interface of the note server has six routes, each with methods of its own. A route stands behind
the path of the interface on the request line, and the request line tells which route it is: an id
is one segment of the path, and a search is a query whose values are form-encoded.

Main definitions:

* `Route`, `Route.text`, `Route.methods`: the routes, as they stand on a request line;
* `Client.Asks`: a request for a route.

Results:

* `Client.Asks.unique`: a request is for one route at most;
* `Client.asks_of_call`: a call of a route is a request for it.
-/

namespace NoteTools

open Http Text

/-! ## The routes -/

/-- The values of a search by their names. -/
def SearchParams.pairs (p : SearchParams) : List (String × String) :=
  [("search", p.search), ("fastSearch", toString p.fastSearch),
    ("includeArchivedNotes", toString p.includeArchivedNotes)]

theorem SearchParams.pairs_injective {p p' : SearchParams} (h : p.pairs = p'.pairs) : p = p' := by
  have htruth {b b' : Bool} (h : toString b = toString b') : b = b' := by
    revert h
    revert b b'
    decide
  obtain ⟨search, fast, archived⟩ := p
  obtain ⟨search', fast', archived'⟩ := p'
  simp only [pairs, List.cons.injEq, Prod.mk.injEq, true_and, and_true] at h
  obtain ⟨rfl, hfast, harchived⟩ := h
  rw [htruth hfast, htruth harchived]

/-- A route of the interface. -/
inductive Route where
  /-- The notes that a search finds. -/
  | search (p : SearchParams)
  /-- A note. -/
  | note (id : NoteId)
  /-- The content of a note. -/
  | content (id : NoteId)
  /-- The revisions of a note. -/
  | revision (id : NoteId)
  /-- The place where notes are created. -/
  | newNote
  /-- What the server says of itself. -/
  | appInfo

namespace Route

/-- A route as it stands on a request line, behind the path of the interface. -/
def text : Route → String
  | .search p => "/notes?search=" ++ FormUrl.encode p.search
      ++ "&fastSearch=" ++ toString p.fastSearch
      ++ "&includeArchivedNotes=" ++ toString p.includeArchivedNotes
  | .note id => "/notes/" ++ id.text
  | .content id => "/notes/" ++ id.text ++ "/content"
  | .revision id => "/notes/" ++ id.text ++ "/revision"
  | .newNote => "/create-note"
  | .appInfo => "/app-info"

/-- The methods of a route. The note at the root is not deleted. -/
def methods : Route → List Method
  | .search _ => [.get]
  | .note id => if id = NoteId.root then [.get, .patch] else [.get, .patch, .delete]
  | .content _ => [.get, .put]
  | .revision _ => [.post]
  | .newNote => [.post]
  | .appInfo => [.get]

/-- The segments of a route. -/
def segments : Route → List String
  | .search _ => ["notes"]
  | .note id => ["notes", id.text]
  | .content id => ["notes", id.text, "content"]
  | .revision id => ["notes", id.text, "revision"]
  | .newNote => ["create-note"]
  | .appInfo => ["app-info"]

/-- The named values of a route. -/
def pairs : Route → List (String × String)
  | .search p => p.pairs
  | _ => []

/-- The query of a route. -/
def query? : Route → Option String
  | .search p => some (FormUrl.encodePairs p.pairs)
  | _ => none

theorem encodePairs_pairs (p : SearchParams) :
    FormUrl.encodePairs p.pairs = "search=" ++ FormUrl.encode p.search
      ++ "&fastSearch=" ++ toString p.fastSearch
      ++ "&includeArchivedNotes=" ++ toString p.includeArchivedNotes := by
  have htruth (b : Bool) : FormUrl.encode (toString b) = toString b := by
    cases b <;> decide
  have hsearch : FormUrl.encode "search" = "search" := by decide
  have hfast : FormUrl.encode "fastSearch" = "fastSearch" := by decide
  have harchived : FormUrl.encode "includeArchivedNotes" = "includeArchivedNotes" := by decide
  rw [← String.toList_inj]
  simp [FormUrl.encodePairs, SearchParams.pairs, String.intercalate_cons_cons, htruth, hsearch,
    hfast, harchived]

/-- A route is written as its segments and its query. -/
theorem text_eq (route : Route) :
    route.text = Endpoint.pathText route.segments ++ queryText route.query? := by
  have hnotes (rest : List String) : Endpoint.pathText ("notes" :: rest) =
      "/notes" ++ Endpoint.pathText rest :=
    Endpoint.pathText_cons "notes" rest
  have hid (id : NoteId) (rest : List String) (back : String)
      (hback : Endpoint.pathText rest = back) :
      "/notes/" ++ id.text ++ back = Endpoint.pathText ("notes" :: id.text :: rest) ++ "" := by
    have hslash : "/notes" ++ "/" = "/notes/" := by decide
    rw [hnotes, Endpoint.pathText_cons, hback, ← hslash]
    simp only [String.append_assoc, String.append_empty]
  cases route with
  | search p =>
    have hquery : "/notes" ++ "?" ++ "search=" = "/notes?search=" := by decide
    show "/notes?search=" ++ FormUrl.encode p.search ++ "&fastSearch=" ++ toString p.fastSearch
      ++ "&includeArchivedNotes=" ++ toString p.includeArchivedNotes =
      Endpoint.pathText ["notes"] ++ ("?" ++ FormUrl.encodePairs p.pairs)
    rw [hnotes, Endpoint.pathText_nil, encodePairs_pairs, ← hquery]
    simp only [String.append_assoc, String.append_empty]
  | note id =>
    have h := hid id [] "" Endpoint.pathText_nil
    rwa [String.append_empty] at h
  | content id => exact hid id ["content"] "/content" (by decide)
  | revision id => exact hid id ["revision"] "/revision" (by decide)
  | newNote => decide
  | appInfo => decide

theorem query?_of_pairs (route : Route) :
    (if route.pairs.isEmpty then none else some (FormUrl.encodePairs route.pairs)) =
      route.query? := by
  cases route <;> rfl

theorem segments_ne_nil (route : Route) : route.segments ≠ [] := by
  cases route <;> exact List.cons_ne_nil _ _

/-- A route is determined by its segments and its query. -/
theorem eq_of_segments_query? {route route' : Route} (hsegments : route.segments = route'.segments)
    (hquery : route.query? = route'.query?) : route = route' := by
  have hid {id id' : NoteId} (h : id.text = id'.text) : id = id' := by
    obtain ⟨text, valid⟩ := id
    cases h
    rfl
  -- Routes of different kinds differ in their fixed segments or in their number.
  cases route <;> cases route' <;> simp [segments] at hsegments
  case search.search p p' =>
    have hread : FormUrl.decodePairs (FormUrl.encodePairs p.pairs) =
        FormUrl.decodePairs (FormUrl.encodePairs p'.pairs) :=
      congrArg FormUrl.decodePairs (Option.some.inj hquery)
    rw [FormUrl.decodePairs_encodePairs, FormUrl.decodePairs_encodePairs] at hread
    rw [SearchParams.pairs_injective hread]
  case note.note id id' => rw [hid hsegments]
  case content.content id id' => rw [hid hsegments]
  case revision.revision id id' => rw [hid hsegments]
  case newNote.newNote => rfl
  case appInfo.appInfo => rfl

/-- The segments of a route are made of the characters of ids. -/
theorem isPlain_segments (route : Route) : IsPlain route.segments := by
  cases route with
  | search p => exact isPlain_notes
  | newNote => exact isPlain_newNote
  | appInfo => exact isPlain_appInfo
  | note id | content id | revision id => exact isPlain_note id (by decide)

/-- The query of a route has no character at which a fragment begins. -/
theorem notMem_queryText (route : Route) : '#' ∉ (queryText route.query?).toList := by
  cases route with
  | search p =>
    have htruth (b : Bool) : '#' ∉ (toString b).toList := by
      cases b <;> decide
    intro hmem
    rw [query?, queryText, encodePairs_pairs] at hmem
    obtain hmem | hmem | hmem : '#' ∈ (FormUrl.encode p.search).toList ∨
        '#' ∈ (toString p.fastSearch).toList ∨ '#' ∈ (toString p.includeArchivedNotes).toList := by
      simpa using hmem
    · exact absurd (FormUrl.isFormChar_of_mem_encode hmem) (by decide)
    · exact htruth p.fastSearch hmem
    · exact htruth p.includeArchivedNotes hmem
  | note id | content id | revision id | newNote | appInfo => exact List.not_mem_nil

end Route

/-! ## Requests for routes -/

/-- What stands on the request line of a call under a bare endpoint. -/
theorem Call.target_request {c : Client} {e : Endpoint} {call : Call} (h : e.IsBare)
    (hne : call.segments ≠ []) : (call.request c e).target =
      Endpoint.pathText (e.segments ++ call.segments)
        ++ queryText
          (if call.query.isEmpty then none else some (FormUrl.encodePairs call.query)) := by
  obtain ⟨origin, segments, query, fragment⟩ := e
  obtain ⟨rfl, rfl⟩ : query = none ∧ fragment = none := h
  have hpath : segments ++ call.segments ≠ [] := fun hnil => hne (List.append_eq_nil_iff.mp hnil).2
  show (call.place _).target = _
  rw [Call.place]
  cases call.query.isEmpty
  · show (if segments ++ call.segments = [] then "/" else _) ++ _ = _
    rw [if_neg hpath]
    rfl
  · show (if segments ++ call.segments = [] then "/" else _) ++ _ = _
    rw [if_neg hpath]
    rfl

namespace Client

/-- The address of the interface has a path and nothing behind it. -/
def HasPlainBase (c : Client) : Prop :=
  '?' ∉ c.base.toList ∧ '#' ∉ c.base.toList

instance (c : Client) : Decidable c.HasPlainBase :=
  inferInstanceAs (Decidable ('?' ∉ c.base.toList ∧ '#' ∉ c.base.toList))

/-- The segments of the path of the interface. -/
def pathSegments (c : Client) : List String :=
  (c.endpoint?.map Endpoint.segments).getD []

/-- The path of the interface. -/
def path (c : Client) : String :=
  Endpoint.pathText c.pathSegments

/-- A request for a route. Its request line is the path of the interface and the route, and nothing
else is read from it. -/
structure Asks (c : Client) (route : Route) (request : Request) : Prop where
  /-- The request line is the path of the interface and the route. -/
  target : request.target = c.path ++ route.text
  /-- The method is one of the route. -/
  method : request.method ∈ route.methods
  /-- The segments of the path are those of the interface and those of the route. -/
  segments : request.segments = c.pathSegments ++ route.segments
  /-- The query is that of the route. -/
  query : request.query? = route.query?
  /-- There is no fragment. -/
  fragment : '#' ∉ request.target.toList

section
variable {c : Client} {e : Endpoint}

theorem isSegment_of_mem_pathSegments {s : String} (hs : s ∈ c.pathSegments) : IsSegment s := by
  rw [pathSegments] at hs
  cases he : c.endpoint? with
  | none =>
    rw [he] at hs
    cases hs
  | some e =>
    rw [he] at hs
    exact Endpoint.isSegment_of_read? he s hs

theorem isSegment_of_mem_append {route : Route} :
    ∀ s ∈ c.pathSegments ++ route.segments, IsSegment s := by
  intro s hs
  obtain hs | hs := List.mem_append.mp hs
  · exact isSegment_of_mem_pathSegments hs
  · exact route.isPlain_segments.isSegment s hs

/-- A route stands on a request line as its segments and its query, behind those of the path. -/
theorem path_append_text (c : Client) (route : Route) :
    c.path ++ route.text =
      Endpoint.pathText (c.pathSegments ++ route.segments) ++ queryText route.query? := by
  rw [Endpoint.pathText_append, String.append_assoc, ← Route.text_eq]
  rfl

/-- A request is for the route that stands on its request line. -/
theorem Asks.eq_of_target {route route' : Route} {request : Request} (h : c.Asks route request)
    (htarget : request.target = c.path ++ route'.text) : route = route' := by
  rw [path_append_text] at htarget
  have hsegments : request.segments = c.pathSegments ++ route'.segments :=
    segments_of_target isSegment_of_mem_append htarget
  refine Route.eq_of_segments_query? ?_ ?_
  · exact List.append_cancel_left (h.segments.symm.trans hsegments)
  · exact h.query.symm.trans (query?_of_target isSegment_of_mem_append htarget)

/-- A request is for one route at most. -/
theorem Asks.unique {route route' : Route} {request : Request} (h : c.Asks route request)
    (h' : c.Asks route' request) : route = route' :=
  h.eq_of_target h'.target

theorem isBare_of_endpoint? (h : c.HasPlainBase) (he : c.endpoint? = some e) : e.IsBare := by
  have hmem {d : Char} (hd : d ∈ (trimEnd (· == '/') c.base).toList) : d ∈ c.base.toList := by
    rw [trimEnd, String.toList_ofList, stripEnd, List.mem_reverse] at hd
    exact List.mem_reverse.mp ((List.dropWhile_sublist _).subset hd)
  exact Endpoint.isBare_of_read? he (fun hd => h.1 (hmem hd)) (fun hd => h.2 (hmem hd))

/-- A call of a route is a request for it. -/
theorem asks_of_call (h : c.HasPlainBase) (he : c.ready? = some e) {route : Route} {call : Call}
    (hmethod : call.method ∈ route.methods) (hsegments : call.segments = route.segments)
    (hquery : call.query = route.pairs) : c.Asks route (call.request c e) := by
  have hendpoint : c.endpoint? = some e := by
    unfold ready? at he
    split at he
    · exact he
    · cases he
  have hpath : c.pathSegments = e.segments := by
    rw [pathSegments, hendpoint]
    rfl
  have htarget : (call.request c e).target =
      Endpoint.pathText (c.pathSegments ++ route.segments) ++ queryText route.query? := by
    rw [hpath, ← hsegments, ← Route.query?_of_pairs, ← hquery]
    exact Call.target_request (isBare_of_endpoint? h hendpoint) (hsegments ▸ route.segments_ne_nil)
  have hsegment : ∀ s ∈ c.pathSegments ++ route.segments, IsSegment s := isSegment_of_mem_append
  refine ⟨?_, hmethod, segments_of_target hsegment htarget, query?_of_target hsegment htarget, ?_⟩
  · rw [htarget, path_append_text]
  · rw [htarget, String.toList_append, List.mem_append, not_or]
    exact ⟨fun hmem => (Endpoint.notMem_pathText hsegment '#' hmem).2 rfl, route.notMem_queryText⟩

end

end Client

end NoteTools
