import NoteTools.Proofs.CriteriaAccount
import NoteTools.Proofs.SecretToken

/-!
# Tracing adds events and nothing else

A service that traces its searches does what it does otherwise, and reports more. In front of what a
search reports anyway stands a report of each criterion that is dropped, up to the first invalid
date, and one of the compiled query if there is no such date. A search whose limit is refused is not
compiled, so nothing is added to it; nothing is added to other calls.

The two runs are compared call by call. A call with tracing is the call without it in a session that
has the added events already, and no call looks at the events of its session.

Main definitions:

* `Service.tracing`: a service that traces its searches, or does not;
* `SearchRequest.trace`, `ServiceCall.trace`: the events that tracing adds to a call;
* `Service.reports`: what the calls of a run report, call by call;
* `TracedRun`: what tracing does to a run;
* `Action.Framed`: an action that adds to the events of its session and does not look at them.

Results:

* `ServiceCall.run_perform_tracing`: a call with tracing and without;
* `ServiceCall.framed_perform`: calls do not look at the events;
* `Service.runCalls_from`: runs with tracing and without, from sessions that differ in their events;
* `Service.runCalls_tracing`: every run.
-/

namespace NoteTools

open Http

/-! ## Specification -/

/-- A service that traces its searches, or does not. -/
def Service.tracing (s : Service) (traceQueries : Bool) : Service :=
  { s with traceQueries }

namespace SearchRequest

/-- The criteria of a search that are dropped, up to the first invalid date. -/
def dropped (r : SearchRequest) : List Drop :=
  droppedCriteria (r.criteria.takeWhile fun c => c.dateError?.isNone) 0

/-- What tracing reports of the compilation of a search. -/
def trace (r : SearchRequest) : List Event :=
  r.dropped.map (fun d => {
    level := .debug
    message := "Dropped search criteria."
    fields := [("index", .nat d.index), ("property", .text d.criterion.property),
      ("reason", .text d.reason.message)] }) ++
    match r.query.compile.result with
    | .ok line =>
      [{ level := .debug, message := "Compiled search query.", fields := [("query", .text line)] }]
    | .error _ => []

/-- The warnings of a search, one for each criterion that is dropped. -/
def warnings (r : SearchRequest) : List String :=
  r.dropped.map fun d => "criteria[" ++ toString d.index ++ "] (" ++ d.criterion.property ++
    ") was ignored: " ++ d.reason.message ++ "."

end SearchRequest

namespace ServiceCall

/-- What tracing adds to a call, given the largest limit of a search. -/
def trace (largest : UInt32) : ServiceCall → List Event
  | .search r => if r.limit.all fun n => 0 < n && n ≤ largest then r.trace else []
  | _ => []

/-- The answer to a search warns about the criteria that are dropped from it. -/
def Warned : ServiceCall → Except ServiceError ServiceAnswer → Prop
  | .search r, .ok (.found response) => response.warnings = r.warnings
  | _, _ => True

end ServiceCall

/-- What the calls of a run report, call by call. -/
def Service.reports (s : Service) : List ServiceCall → Session → List (List Event)
  | [], _ => []
  | call :: calls, t =>
    let next := (Action.run (call.perform s) t).2
    next.events.drop t.events.length :: s.reports calls next

/-- What tracing does to a run: `off` is what the run gives and leaves without it, and `on` is what
it gives and leaves with it. -/
structure TracedRun (largest : UInt32) (calls : List ServiceCall) (reports : List (List Event))
    (off on : List (Except ServiceError ServiceAnswer) × Session) : Prop where
  /-- The answers are the same. -/
  answers : on.1 = off.1
  /-- The requests are the same. -/
  requests : on.2.requests = off.2.requests
  /-- The server has given the same replies. -/
  server : on.2.server = off.2.server
  /-- Without tracing, the events are those that the calls report. -/
  events_off : reports.length = calls.length ∧ off.2.events = reports.flatten
  /-- With tracing, what it adds to a call stands in front of what the call reports. -/
  events_on : on.2.events =
    (List.zipWith (fun call own => call.trace largest ++ own) calls reports).flatten
  /-- The warnings are about the same criteria, in the same order. -/
  warned : List.Forall₂ ServiceCall.Warned calls on.1

/-! ## What is added to a search -/

theorem compile_drops_takeWhile (q : Query) :
    q.compile.drops = droppedCriteria (q.criteria.takeWhile fun c => c.dateError?.isNone) 0 :=
  dropsFrom_readCriteria_takeWhile q.criteria 0

namespace SearchRequest

variable {r : SearchRequest}

/-- The events of a compilation are the trace of its search. -/
theorem compile_events (r : SearchRequest) : r.query.compile.events = r.trace := by
  rw [Compilation.events_eq, compile_drops_takeWhile]
  rfl

theorem compile_warnings (r : SearchRequest) :
    r.query.compile.drops.map Drop.warning = r.warnings := by
  rw [compile_drops_takeWhile]
  rfl

end SearchRequest

theorem limitInRange_iff {largest : UInt32} {limit : Option UInt32} :
    LimitInRange largest limit ↔ (limit.all fun n => 0 < n && n ≤ largest) = true := by
  cases limit with
  | none => simp [LimitInRange]
  | some n => simp [LimitInRange, UInt32.pos_iff_ne_zero]

namespace Service

variable (s : Service)

theorem traced_off (r : SearchRequest) : (s.tracing false).traced r = [] := by
  rw [traced]
  split <;> rfl

/-- A service that traces reports the trace of a search whose limit is in range. -/
theorem traced_on (r : SearchRequest) :
    (s.tracing true).traced r = (ServiceCall.search r).trace s.maxLimit := by
  rw [traced, ServiceCall.trace]
  by_cases hlimit : LimitInRange s.maxLimit r.limit
  · have hcheck : checkLimit (s.tracing true).maxLimit r.limit = .ok (r.limit.bind Limit.of?) :=
      checkLimit_of_inRange hlimit
    rw [if_pos (limitInRange_iff.mp hlimit), hcheck]
    exact r.compile_events
  · obtain ⟨n, hn, hout⟩ := exists_outOfRange hlimit
    have hcheck : checkLimit (s.tracing true).maxLimit r.limit =
        .error (.invalidRequest (.limitOutOfRange s.maxLimit n)) :=
      hn ▸ checkLimit_of_outOfRange hout
    rw [if_neg (mt limitInRange_iff.mpr hlimit), hcheck]

end Service

/-! ## A call with tracing and without -/

/-- A search with tracing is the search without it, in a session that has the trace already. -/
theorem Service.run_search_tracing (s : Service) (r : SearchRequest) (t : Session) :
    Action.run ((s.tracing true).search r) t =
      Action.run ((s.tracing false).search r)
        { t with events := t.events ++ (ServiceCall.search r).trace s.maxLimit } := by
  unfold search
  rw [Action.run_bind, Action.run_bind, run_compileSearch, run_compileSearch, traced_on, traced_off,
    List.append_nil]
  rfl

/-- **A call with tracing** is the call without it, in a session that has the trace already. -/
theorem ServiceCall.run_perform_tracing (s : Service) (call : ServiceCall) (t : Session) :
    Action.run (call.perform (s.tracing true)) t =
      Action.run (call.perform (s.tracing false))
        { t with events := t.events ++ call.trace s.maxLimit } := by
  have hnothing (x : ServiceAction ServiceAnswer) :
      Action.run x t = Action.run x { t with events := t.events ++ [] } := by
    rw [List.append_nil]
  cases call with
  | search r =>
    unfold perform
    dsimp only
    rw [Action.run_map, Action.run_map, s.run_search_tracing]
  | get r => exact hnothing _
  | create r => exact hnothing _
  | update r => exact hnothing _
  | delete r => exact hnothing _
  | checkConnection => exact hnothing _

/-! ## Calls do not look at the events -/

namespace Action

variable {ε α : Type}

/-- An action that adds to the events of its session and does not look at them. -/
def Framed (x : Action ε α) : Prop :=
  ∀ t, ∃ own, ∀ events, run x { t with events } =
    ((run x t).1, { (run x t).2 with events := events ++ own })

/-- What such an action adds is what it reports in any session that differs in the events only. -/
theorem Framed.run_eq {x : Action ε α} (h : Framed x) (t : Session) (events : List Event) :
    run x { t with events } = ((run x t).1,
      { (run x t).2 with events := events ++ (run x t).2.events.drop t.events.length }) := by
  obtain ⟨own, hown⟩ := h t
  have hevents : (run x t).2.events = t.events ++ own :=
    congrArg (fun r => r.2.events) (hown t.events)
  rw [hown, hevents, List.drop_left]

/-- Not looking at the events is kept. -/
theorem congruence_framed : Congruence fun _ _ _ x _ => Framed x where
  ofLocal _ _ hlocal := by
    obtain ⟨result, own, hrun⟩ := hlocal
    intro t
    refine ⟨own, fun events => ?_⟩
    rw [hrun, hrun]
  bind {_ _ _ _ x _ f _} hx hf := by
    intro t
    obtain ⟨own, hown⟩ := hx t
    cases hrun : run x t with
    | mk result u =>
      rw [hrun] at hown
      cases result with
      | error e =>
        refine ⟨own, fun events => ?_⟩
        rw [run_bind, run_bind, hown, hrun]
      | ok v =>
        obtain ⟨more, hmore⟩ := hf v u
        refine ⟨own ++ more, fun events => ?_⟩
        rw [run_bind, run_bind, hown, hrun, ← List.append_assoc]
        exact hmore (events ++ own)
  mapError _ hx := by
    intro t
    obtain ⟨own, hown⟩ := hx t
    refine ⟨own, fun events => ?_⟩
    rw [run_mapError, run_mapError, hown]

end Action

/-- A call of the note server reports nothing. -/
theorem Client.framed_send (c : Client) (call : Call) (h : IsPlain call.segments) :
    Action.Framed (c.send call.method call.segments call.query call.body) := by
  intro t
  refine ⟨[], fun events => ?_⟩
  rw [run_send c call h, run_send c call h, List.append_nil]
  dsimp only
  cases call.exchange c t.server <;> rfl

/-- **Calls do not look at the events** of their session. -/
theorem ServiceCall.framed_perform (s : Service) (call : ServiceCall) :
    Action.Framed (call.perform s) :=
  Service.related_perform (d := s.client) Action.congruence_framed s.client.framed_send rfl call

/-! ## Runs with tracing and without -/

/-- The answer to a search has the warnings of the search. -/
theorem ServiceCall.warned_perform (s : Service) (call : ServiceCall) (t : Session) :
    call.Warned (Action.run (call.perform s) t).1 := by
  cases call with
  | search r =>
    unfold perform
    dsimp only
    rw [Action.run_map]
    cases hresult : (Action.run (s.search r) t).1 with
    | error e => trivial
    | ok response => exact (Service.warned_of_ok hresult).2.trans r.compile_warnings
  | get r => trivial
  | create r => trivial
  | update r => trivial
  | delete r => trivial
  | checkConnection => trivial

namespace Service

variable (s : Service)

/-- What a run without tracing leaves: the events before it, and what its calls report. -/
theorem runCalls_events (calls : List ServiceCall) (t : Session) :
    (s.reports calls t).length = calls.length ∧
      (s.runCalls calls t).2.events = t.events ++ (s.reports calls t).flatten := by
  induction calls generalizing t with
  | nil => exact ⟨rfl, (List.append_nil _).symm⟩
  | cons call calls ih =>
    obtain ⟨hlength, hevents⟩ := ih (Action.run (call.perform s) t).2
    have hcall : (Action.run (call.perform s) t).2.events =
        t.events ++ (Action.run (call.perform s) t).2.events.drop t.events.length :=
      congrArg (fun r => r.2.events) ((call.framed_perform s).run_eq t t.events)
    refine ⟨congrArg Nat.succ hlength, ?_⟩
    show (s.runCalls calls (Action.run (call.perform s) t).2).2.events = _
    rw [hevents, hcall, reports, List.flatten_cons, List.append_assoc]

/-- A run with tracing, from a session with any events, against a run without it. -/
theorem runCalls_from (calls : List ServiceCall) (t : Session) (events : List Event) :
    (s.tracing true).runCalls calls { t with events } =
      (((s.tracing false).runCalls calls t).1,
        { ((s.tracing false).runCalls calls t).2 with
          events := events ++ (List.zipWith (fun call own => call.trace s.maxLimit ++ own) calls
            ((s.tracing false).reports calls t)).flatten }) := by
  induction calls generalizing t events with
  | nil => simp only [runCalls, reports, List.zipWith_nil_left, List.flatten_nil, List.append_nil]
  | cons call calls ih =>
    have hcall := call.run_perform_tracing s { t with events }
    rw [(call.framed_perform (s.tracing false)).run_eq t] at hcall
    simp only [runCalls, reports, hcall, ih, List.zipWith_cons_cons, List.flatten_cons,
      List.append_assoc]

theorem runCalls_warned (calls : List ServiceCall) (t : Session) :
    List.Forall₂ ServiceCall.Warned calls (s.runCalls calls t).1 := by
  induction calls generalizing t with
  | nil => exact .nil
  | cons call calls ih => exact .cons (call.warned_perform s t) (ih _)

/-- **Tracing adds events and nothing else.** A run with tracing gives the same answers and sends
the same requests as a run without it; in front of what a call reports anyway stands its trace. -/
theorem runCalls_tracing (calls : List ServiceCall) (server : Server) :
    TracedRun s.maxLimit calls ((s.tracing false).reports calls (.start server))
      ((s.tracing false).runCalls calls (.start server))
      ((s.tracing true).runCalls calls (.start server)) := by
  have hrun : (s.tracing true).runCalls calls (.start server) = _ :=
    s.runCalls_from calls (.start server) []
  obtain ⟨hlength, hevents⟩ := (s.tracing false).runCalls_events calls (.start server)
  exact {
    answers := by rw [hrun]
    requests := by rw [hrun]
    server := by rw [hrun]
    events_off := ⟨hlength, hevents⟩
    events_on := by rw [hrun, List.nil_append]
    warned := (s.tracing true).runCalls_warned calls (.start server) }

/-- Nothing is added to a search whose limit is refused, what is dropped before an invalid date is
added to one that has it, and an empty query is added too. No request is sent by these searches. -/
example :
    let dropped : Criterion := { property := " ", kind := .label }
    let soon : Criterion :=
      { property := "dateCreated", kind := .noteProperty, op := some "=", value := some "soon" }
    let calls : List ServiceCall := [.search { criteria := [dropped], limit := some 0 },
      .search { criteria := [dropped, soon, dropped] }, .search {}]
    let last := (tracingService.runCalls calls (.start emptyServer)).2
    last.requests = [] ∧ last.events.map Event.fields =
      [[("index", .nat 0), ("property", .text " "), ("reason", .text "property is empty")],
        [("query", .text "")]] := by
  decide +kernel

end Service

end NoteTools
