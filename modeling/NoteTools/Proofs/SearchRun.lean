import NoteTools.Proofs.Routes
import NoteTools.Proofs.SearchPlan

/-!
# Searches from end to end

A search checks its limit, compiles its query and asks the server for the line, in this order. A
search that is stopped on the way sends nothing. A search that is not stopped sends one request,
whose query is read back as the line and the two flags, and the answer says the same as was sent.

Main definitions:

* `foundNotes`: the notes of a reply to a search;
* `SearchSent`, `SearchRun`: what a search that asks the server does, and what any search does.

Results:

* `Service.search_cases`: a search in steps;
* `Service.search_run`: every search.
-/

namespace NoteTools

open Http Text

/-! ## A search in steps -/

/-- The notes of a reply to a search. -/
def foundNotes (reply : Reply) : Except ApiError (List Note) :=
  (Client.accept reply).bind fun reply =>
    (Json.decodeGlyphs SearchResults.decode (Utf8.pieces reply.content)).mapError .undecodable

/-- The call of a search. -/
def SearchParams.call (p : SearchParams) : Call where
  method := .get
  segments := (Route.search p).segments
  query := (Route.search p).pairs

/-- The answer to a search that was sent. -/
def SearchParams.answer (p : SearchParams) (warnings : List String) (notes : List Note) :
    SearchResponse where
  query := p.search
  fastSearch := p.fastSearch
  includeArchivedNotes := p.includeArchivedNotes
  results := notes
  warnings := warnings

theorem Client.run_searchNotes (c : Client) (p : SearchParams) (t : Session) :
    Action.run (ServiceAction.call (c.searchNotes p)) t =
      match p.call.exchange c t.server with
      | .error error => (.error (.ofApi error), t)
      | .ok (x, server) => ((foundNotes x.reply).mapError .ofApi, t.after server [x]) :=
  c.run_call p.call isPlain_notes (run_decodeReply SearchResults.decode) t

namespace Service

variable {s : Service} {r : SearchRequest}

/-- A search that has no plan stops before anything is sent. -/
theorem run_search_of_error {e : ServiceError} (h : s.plan r = .error e) (t : Session) :
    Action.run (s.search r) t = (.error e, { t with events := t.events ++ s.traced r }) := by
  rw [search, Action.run_bind, run_compileSearch, h]

/-- **A search in steps.** Without a plan it stops, and it stops when there is no reply; else it has
sent one request, and answers what was asked and what the reply has. -/
theorem search_cases (s : Service) (r : SearchRequest) (t : Session) :
    (∃ e, s.plan r = .error e ∧ (Action.run (s.search r) t).1 = .error e ∧
      (Action.run (s.search r) t).2.requests = t.requests) ∨
    ∃ p warnings, s.plan r = .ok (p, warnings) ∧
      ((∃ error, p.call.exchange s.client t.server = .error error ∧
        (Action.run (s.search r) t).1 = .error (.ofApi error) ∧
        (Action.run (s.search r) t).2.requests = t.requests) ∨
      ∃ x next, p.call.exchange s.client t.server = .ok (x, next) ∧
        (Action.run (s.search r) t).1 =
          ((foundNotes x.reply).map (p.answer warnings)).mapError ServiceError.ofApi ∧
        (Action.run (s.search r) t).2.requests = t.requests ++ [x.request]) := by
  cases hplan : s.plan r with
  | error e =>
    rw [run_search_of_error hplan]
    exact .inl ⟨e, rfl, rfl, rfl⟩
  | ok plan =>
    obtain ⟨p, warnings⟩ := plan
    refine .inr ⟨p, warnings, rfl, ?_⟩
    rw [search, Action.run_bind, run_compileSearch, hplan]
    dsimp only
    rw [Action.run_bind, Client.run_searchNotes]
    cases hexchange : p.call.exchange s.client t.server with
    | error error => exact .inl ⟨error, rfl, rfl, rfl⟩
    | ok answer =>
      obtain ⟨x, next⟩ := answer
      refine .inr ⟨x, next, rfl, ?_⟩
      dsimp only
      cases foundNotes x.reply with
      | error error => exact ⟨rfl, rfl⟩
      | ok notes => exact ⟨rfl, rfl⟩

/-- A search with a plan and a reply. -/
theorem run_search_of_ok {p : SearchParams} {warnings : List String}
    (h : s.plan r = .ok (p, warnings)) {t : Session} {e : Endpoint} {reply : Reply} {next : Server}
    (he : s.client.ready? = some e) (hanswer : t.server.answer = some (reply, next)) :
    (Action.run (s.search r) t).1 =
        ((foundNotes reply).map (p.answer warnings)).mapError ServiceError.ofApi ∧
      (Action.run (s.search r) t).2.requests = t.requests ++ [p.call.request s.client e] := by
  obtain ⟨error, hplan, -⟩ | ⟨p', warnings', hplan, hsteps⟩ := s.search_cases r t
  · rw [h] at hplan
    cases hplan
  rw [h] at hplan
  cases hplan
  rw [Call.exchange_of_answer he hanswer] at hsteps
  obtain ⟨error, ⟨⟩, -⟩ | ⟨x, next', ⟨⟩, hrun⟩ := hsteps
  exact hrun

end Service

/-! ## Every search -/

/-- A search for a line that was sent, and how it ends after the reply. -/
structure SearchSent (c : Client) (r : SearchRequest) (line : String) (reply : Reply)
    (request : Request) (outcome : Except ServiceError SearchResponse) : Prop where
  /-- The request is a search on the note server. -/
  asks : c.Asks (.search (r.asked line).1) request
  /-- It only reads. -/
  method : request.method = .get
  /-- Its query stands for the line and the two flags, and nothing else. -/
  query : request.query?.map FormUrl.decodePairs = some
    [("search", line), ("fastSearch", toString r.query.isFast),
      ("includeArchivedNotes", toString (r.includeArchived || r.query.mentionsArchived))]
  /-- A limit stands at the end of the line. -/
  limit : ∀ n, r.limit = some n → ∃ body, line = body ++ " limit " ++ toString n.toNat
  /-- The search succeeds exactly when the reply has notes. -/
  succeeds : (∃ response, outcome = .ok response) ↔ ∃ notes, foundNotes reply = .ok notes
  /-- The answer says the line and the flags that were sent. -/
  echoes : ∀ response, outcome = .ok response → request.query?.map FormUrl.decodePairs = some
    [("search", response.query), ("fastSearch", toString response.fastSearch),
      ("includeArchivedNotes", toString response.includeArchivedNotes)]
  /-- The answer has the notes of the reply. -/
  results : ∀ response, outcome = .ok response → foundNotes reply = .ok response.results
  /-- The answer has a warning for each dropped criterion, in order. -/
  warnings : ∀ response, outcome = .ok response →
    response.warnings = (droppedCriteria r.criteria 0).map Drop.warning

/-- What a search does in a session: the first of four cases. -/
structure SearchRun (s : Service) (r : SearchRequest) (t : Session)
    (outcome : Except ServiceError SearchResponse) (requests : List Request) : Prop where
  /-- A limit of zero or above the largest one is a fault, and nothing is sent. -/
  badLimit : ∀ n, r.limit = some n → (n = 0 ∨ s.maxLimit < n) →
    outcome = .error (.invalidRequest (.limitOutOfRange s.maxLimit n)) ∧ requests = t.requests
  /-- An invalid date is an error, and nothing is sent. -/
  badDate : LimitInRange s.maxLimit r.limit → ∀ e, r.query.compile.result = .error e →
    outcome = .error (.date e) ∧ requests = t.requests
  /-- A search for nothing is a fault, and nothing is sent. -/
  nothing : LimitInRange s.maxLimit r.limit → r.query.compile.result = .ok "" →
    outcome = .error (.invalidRequest .nothingToSearch) ∧ requests = t.requests
  /-- Any other search sends one request, if the request can be built and the server gives a
  reply. -/
  sent : LimitInRange s.maxLimit r.limit → ∀ line, r.query.compile.result = .ok line → line ≠ "" →
    s.client.HasPlainBase → isHeaderText s.client.token = true →
    ∀ e, s.client.endpoint? = some e → ∀ reply next, t.server.answer = some (reply, next) →
      ∃ request, requests = t.requests ++ [request] ∧
        SearchSent s.client r line reply request outcome
  /-- Otherwise the server has failed, and nothing is sent. -/
  unsent : LimitInRange s.maxLimit r.limit → ∀ line, r.query.compile.result = .ok line → line ≠ "" →
    s.client.ready? = none ∨ t.server.answer = none →
      (∃ cause, outcome = .error (.serverFailure cause)) ∧ requests = t.requests

section
variable {s : Service} {r : SearchRequest}

theorem plan_of_inRange (h : LimitInRange s.maxLimit r.limit) :
    s.plan r = r.ask r.query.compile.result := by
  rw [Service.plan, checkLimit_of_inRange h]

theorem plan_of_line {line : String} (hlimit : LimitInRange s.maxLimit r.limit)
    (hline : r.query.compile.result = .ok line) (hne : line ≠ "") :
    s.plan r = .ok (r.asked line) := by
  rw [plan_of_inRange hlimit, hline, SearchRequest.ask, if_neg hne]

/-- A search that finds no server ends with a failure of the server. -/
theorem run_search_of_silent {p : SearchParams} {warnings : List String}
    (h : s.plan r = .ok (p, warnings)) {t : Session}
    (hsilent : s.client.ready? = none ∨ t.server.answer = none) :
    (∃ cause, (Action.run (s.search r) t).1 = .error (.serverFailure cause)) ∧
      (Action.run (s.search r) t).2.requests = t.requests := by
  obtain ⟨e, hplan, -⟩ | ⟨p', warnings', hplan, hsteps⟩ := s.search_cases r t
  · rw [h] at hplan
    cases hplan
  obtain ⟨error, hnone⟩ := p'.call.exchange_of_silent hsilent
  obtain ⟨error', hexchange, houtcome, hrequests⟩ | ⟨x, next, hexchange, -⟩ := hsteps
  · obtain ⟨cause, hcause⟩ := Call.serverFailure_of_exchange hexchange
    exact ⟨⟨cause, houtcome.trans (congrArg Except.error hcause)⟩, hrequests⟩
  · rw [hnone] at hexchange
    cases hexchange

theorem searchSent_of_line {line : String} {t : Session} {e : Endpoint} {reply : Reply}
    {next : Server} (hbase : s.client.HasPlainBase) (he : s.client.ready? = some e)
    (hanswer : t.server.answer = some (reply, next)) (hlimit : LimitInRange s.maxLimit r.limit)
    (hline : r.query.compile.result = .ok line) (hne : line ≠ "") :
    ∃ request, (Action.run (s.search r) t).2.requests = t.requests ++ [request] ∧
      SearchSent s.client r line reply request (Action.run (s.search r) t).1 := by
  obtain ⟨houtcome, hrequests⟩ :=
    Service.run_search_of_ok (plan_of_line hlimit hline hne) he hanswer
  have hasks :
      s.client.Asks (.search (r.asked line).1) ((r.asked line).1.call.request s.client e) :=
    Client.asks_of_call hbase he (List.mem_singleton_self _) rfl rfl
  have hread : ((r.asked line).1.call.request s.client e).query?.map FormUrl.decodePairs =
      some (r.asked line).1.pairs := by
    rw [hasks.query, Route.query?, Option.map_some, FormUrl.decodePairs_encodePairs]
  have hresponse {response : SearchResponse} (h : (Action.run (s.search r) t).1 = .ok response) :
      ∃ notes, foundNotes reply = .ok notes ∧
        response = (r.asked line).1.answer (r.asked line).2 notes := by
    rw [houtcome] at h
    cases hnotes : foundNotes reply with
    | error error =>
      rw [hnotes] at h
      cases h
    | ok notes =>
      rw [hnotes] at h
      cases h
      exact ⟨notes, rfl, rfl⟩
  refine ⟨_, hrequests, hasks, rfl, hread, ?_, ?_, ?_, ?_, ?_⟩
  · intro n hn
    have hof : r.query.limit = some ⟨n, (hlimit n hn).1⟩ := by
      show r.limit.bind Limit.of? = _
      rw [hn]
      exact dif_pos (hlimit n hn).1
    obtain ⟨body, -, hbody⟩ := compile_limit hline hne hof
    exact ⟨body, hbody⟩
  · constructor
    · rintro ⟨response, h⟩
      obtain ⟨notes, hnotes, -⟩ := hresponse h
      exact ⟨notes, hnotes⟩
    · rintro ⟨notes, hnotes⟩
      rw [houtcome, hnotes]
      exact ⟨_, rfl⟩
  · intro response h
    obtain ⟨notes, -, rfl⟩ := hresponse h
    exact hread
  · intro response h
    obtain ⟨notes, hnotes, rfl⟩ := hresponse h
    exact hnotes
  · intro response h
    obtain ⟨notes, -, rfl⟩ := hresponse h
    exact congrArg (List.map Drop.warning) (compile_drops hline)

/-- **Every search.** The limit is checked, the query is compiled, and an empty line is refused, in
this order and before anything is sent. Otherwise one request is sent, whose query stands for the
line and the flags of the answer, if it can be built and is answered. -/
theorem Service.search_run (s : Service) (r : SearchRequest) (t : Session) :
    SearchRun s r t (Action.run (s.search r) t).1 (Action.run (s.search r) t).2.requests where
  badLimit n hn hrange := by
    have hplan : s.plan r = .error (.invalidRequest (.limitOutOfRange s.maxLimit n)) := by
      rw [Service.plan, hn, checkLimit_of_outOfRange hrange]
    rw [Service.run_search_of_error hplan]
    exact ⟨rfl, rfl⟩
  badDate hlimit error hdate := by
    have hplan : s.plan r = .error (.date error) := by
      rw [plan_of_inRange hlimit, hdate]
      rfl
    rw [Service.run_search_of_error hplan]
    exact ⟨rfl, rfl⟩
  nothing hlimit hempty := by
    have hplan : s.plan r = .error (.invalidRequest .nothingToSearch) := by
      rw [plan_of_inRange hlimit, hempty]
      rfl
    rw [Service.run_search_of_error hplan]
    exact ⟨rfl, rfl⟩
  sent hlimit line hline hne hbase htoken e hendpoint reply next hanswer := by
    have he : s.client.ready? = some e := by rw [Client.ready?, if_pos htoken, hendpoint]
    exact searchSent_of_line hbase he hanswer hlimit hline hne
  unsent hlimit line hline hne hsilent :=
    run_search_of_silent (plan_of_line hlimit hline hne) hsilent

end

/-- A service whose server is at a local address. -/
def tideService : Service :=
  ⟨⟨"http://tide:8080/etapi/", "etapi-token"⟩, 200, false⟩

/-- Where the requests of that service go. -/
def tideEndpoint : Endpoint :=
  ⟨"http://tide:8080", ["etapi"], none, none⟩

/-- A search with a dropped criterion and a limit. -/
def tideSearch : SearchRequest where
  text := some "high & low"
  criteria := [{ property := " ", kind := .label }, { property := "sea", kind := .label }]
  limit := some 5

/-- A reply with one note. -/
def tideReply : Reply :=
  ⟨200, none, Text.Utf8.encode "\x7b\"results\":[\x7b\"title\":\"Tides\"\x7d]\x7d"⟩

theorem search_run_tide :
    LimitInRange tideService.maxLimit tideSearch.limit ∧
      tideSearch.query.compile.result = .ok "high & low #sea limit 5" ∧
      ((foundNotes tideReply).map fun notes => notes.map Note.title) = .ok ["Tides"] ∧
      ∃ request, (Action.run (tideService.search tideSearch)
          (.start ⟨[tideReply], none⟩)).2.requests = [] ++ [request] ∧
        SearchSent tideService.client tideSearch "high & low #sea limit 5" tideReply request
          (Action.run (tideService.search tideSearch) (.start ⟨[tideReply], none⟩)).1 := by
  have hlimit : LimitInRange tideService.maxLimit tideSearch.limit := by
    rintro n ⟨⟩
    decide
  have hbase : tideService.client.HasPlainBase := by decide
  have htoken : isHeaderText tideService.client.token = true := by decide
  have hendpoint : tideService.client.endpoint? = some tideEndpoint := by decide +kernel
  have hanswer : (⟨[tideReply], none⟩ : Server).answer = some (tideReply, ⟨[], none⟩) := rfl
  have hline : tideSearch.query.compile.result = .ok "high & low #sea limit 5" := by
    decide +kernel
  refine ⟨hlimit, hline, by decide +kernel, ?_⟩
  exact (tideService.search_run tideSearch (.start ⟨[tideReply], none⟩)).sent hlimit _ hline
    (by decide) hbase htoken tideEndpoint hendpoint tideReply _ hanswer

end NoteTools
