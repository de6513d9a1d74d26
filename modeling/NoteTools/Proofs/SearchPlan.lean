import NoteTools.Proofs.Compilation
import NoteTools.Proofs.Exchange
import NoteTools.Service.Search

/-!
# The plan of a search

Before anything is sent, the limit of a search is checked and its query is compiled. This gives what
the server is asked and the warnings about dropped criteria, or the error of the search.

Main definitions:

* `LimitInRange`, `SearchRequest.query`: the limits that are allowed, and the query of a search;
* `droppedCriteria`: the criteria that a compilation drops;
* `Service.plan`: the plan of a search.

Results:

* `compile_drops`: without an invalid date, exactly the dropped criteria are reported;
* `compile_limit`: a limit stands at the end of the line;
* `Service.run_compileSearch`: compiling a search follows its plan and sends nothing.
-/

namespace NoteTools

/-! ## Dropped criteria -/

/-- Why a criterion is dropped, if it is. -/
def Criterion.dropReason? (c : Criterion) : Option DropReason :=
  match c.fragment with
  | .ok (.dropped reason) => some reason
  | _ => none

/-- The criteria of a list that are dropped, the first one of the list having the given index. -/
def droppedCriteria (criteria : List Criterion) (index : Nat) : List Drop :=
  (criteria.zipIdx index).filterMap fun (c, i) => c.dropReason?.map fun reason => ⟨i, c, reason⟩

theorem droppedCriteria_cons (c : Criterion) (cs : List Criterion) (index : Nat) :
    droppedCriteria (c :: cs) index =
      (c.dropReason?.map fun reason => ⟨index, c, reason⟩).toList
        ++ droppedCriteria cs (index + 1) := by
  rw [droppedCriteria, droppedCriteria, List.zipIdx_cons, List.filterMap_cons]
  dsimp only
  cases c.dropReason? <;> rfl

/-- Up to the first invalid date, exactly the dropped criteria are reported. -/
theorem dropsFrom_readCriteria_takeWhile (cs : List Criterion) (index : Nat) :
    dropsFrom index (readCriteria cs).1 =
      droppedCriteria (cs.takeWhile fun c => c.dateError?.isNone) index := by
  induction cs generalizing index with
  | nil => rfl
  | cons c cs ih =>
    cases hf : c.fragment with
    | error e =>
      have hdate : c.dateError? = some e := by rw [Criterion.dateError?, hf]
      rw [List.takeWhile_cons_of_neg (by simp [hdate]), readCriteria, hf]
      rfl
    | ok f =>
      have hdate : c.dateError? = none := by rw [Criterion.dateError?, hf]
      rw [List.takeWhile_cons_of_pos (by simp [hdate]), readCriteria_cons hf, droppedCriteria_cons,
        Criterion.dropReason?, hf, ← ih]
      cases f with
      | condition text => rfl
      | freeText text => rfl
      | dropped reason => rfl

theorem dropsFrom_readCriteria {cs : List Criterion}
    (h : cs.findSome? Criterion.dateError? = none) (index : Nat) :
    dropsFrom index (readCriteria cs).1 = droppedCriteria cs index := by
  have hall : cs.takeWhile (fun c => c.dateError?.isNone) = cs := by
    rw [List.takeWhile_eq_self_iff]
    exact fun c hc => Option.isNone_iff_eq_none.mpr (List.findSome?_eq_none_iff.mp h c hc)
  rw [dropsFrom_readCriteria_takeWhile, hall]

/-- Without an invalid date, exactly the dropped criteria are reported. -/
theorem compile_drops {q : Query} {line : String} (h : q.compile.result = .ok line) :
    q.compile.drops = droppedCriteria q.criteria 0 :=
  dropsFrom_readCriteria (Query.dateError?_eq_none h) 0

/-! ## Limits -/

theorem assemble_limit (freeText : Option String) (clauses : List String) (scope : Option String)
    (n : Limit) (hne : assemble freeText clauses scope (some n) ≠ "") :
    assemble freeText clauses scope (some n) =
      assemble freeText clauses scope none ++ " limit " ++ toString n.value.toNat := by
  unfold assemble at hne ⊢
  dsimp only at hne ⊢
  split
  · next hempty =>
    rw [if_pos hempty] at hne
    exact absurd rfl hne
  · rfl

/-- A limit stands at the end of the line, behind the line of the query without it. -/
theorem compile_limit {q : Query} {line : String} (h : q.compile.result = .ok line)
    (hne : line ≠ "") {n : Limit} (hlimit : q.limit = some n) :
    ∃ body, { q with limit := none }.compile.result = .ok body ∧
      line = body ++ " limit " ++ toString n.value.toNat := by
  rw [compile_result] at h ⊢
  cases hdate : q.criteria.findSome? Criterion.dateError? with
  | some e =>
    rw [hdate] at h
    cases h
  | none =>
    rw [hdate, hlimit] at h
    obtain rfl := Except.ok.inj h
    exact ⟨_, rfl, assemble_limit _ _ _ _ hne⟩

/-- A limit that is not zero and not above the largest one. -/
def LimitInRange (largest : UInt32) (limit : Option UInt32) : Prop :=
  ∀ n, limit = some n → n ≠ 0 ∧ n ≤ largest

theorem checkLimit_of_inRange {largest : UInt32} {limit : Option UInt32}
    (h : LimitInRange largest limit) : checkLimit largest limit = .ok (limit.bind Limit.of?) := by
  cases limit with
  | none => rfl
  | some n =>
    obtain ⟨hne, hle⟩ := h n rfl
    have hof : Limit.of? n = some ⟨n, hne⟩ := dif_pos hne
    rw [checkLimit, hof]
    dsimp only
    rw [if_pos hle]
    exact congrArg Except.ok hof.symm

theorem checkLimit_of_outOfRange {largest n : UInt32} (h : n = 0 ∨ largest < n) :
    checkLimit largest (some n) = .error (.invalidRequest (.limitOutOfRange largest n)) := by
  rw [checkLimit]
  split
  next limit hof =>
    have hne : n ≠ 0 := by
      rintro rfl
      cases hof
    have hnot : ¬n ≤ largest := UInt32.not_le.mpr (h.resolve_left hne)
    rw [if_neg hnot]
  · rfl

theorem exists_outOfRange {largest : UInt32} {limit : Option UInt32}
    (h : ¬LimitInRange largest limit) : ∃ n, limit = some n ∧ (n = 0 ∨ largest < n) := by
  unfold LimitInRange at h
  push Not at h
  obtain ⟨n, hn, hrange⟩ := h
  refine ⟨n, hn, ?_⟩
  by_cases hzero : n = 0
  · exact .inl hzero
  · exact .inr (UInt32.not_le.mp (hrange hzero))

/-! ## Plans -/

/-- The query of a search whose limit is in range. -/
def SearchRequest.query (r : SearchRequest) : Query where
  text := r.text
  criteria := r.criteria
  scope := r.scope
  limit := r.limit.bind Limit.of?

namespace SearchRequest

/-- What the server is asked in a search for a line, and the warnings about it. -/
def asked (r : SearchRequest) (line : String) : SearchParams × List String :=
  ({ search := line
     fastSearch := r.query.isFast
     includeArchivedNotes := r.includeArchived || r.query.mentionsArchived },
   r.query.compile.drops.map Drop.warning)

/-- What comes of a compiled query. -/
def ask (r : SearchRequest) :
    Except DateError String → Except ServiceError (SearchParams × List String)
  | .error e => .error (.date e)
  | .ok line =>
    if line = "" then .error (.invalidRequest .nothingToSearch) else .ok (r.asked line)

end SearchRequest

namespace Service

/-- What the server is asked in a search, and the warnings about it, unless something is wrong. -/
def plan (s : Service) (r : SearchRequest) : Except ServiceError (SearchParams × List String) :=
  match checkLimit s.maxLimit r.limit with
  | .error e => .error e
  | .ok _ => r.ask r.query.compile.result

/-- A search with a plan has a line that is not empty, and the server is asked for that. -/
theorem plan_eq_ok {s : Service} {r : SearchRequest} {p : SearchParams} {warnings : List String}
    (h : s.plan r = .ok (p, warnings)) : ∃ line, r.query.compile.result = .ok line ∧ line ≠ "" ∧
      r.asked line = (p, warnings) := by
  rw [plan] at h
  split at h
  · cases h
  cases hline : r.query.compile.result with
  | error e =>
    rw [hline] at h
    cases h
  | ok line =>
    rw [hline, SearchRequest.ask] at h
    split at h
    · cases h
    next hne => exact ⟨line, rfl, hne, Except.ok.inj h⟩

/-- What is reported of the compilation of a search. -/
def traced (s : Service) (r : SearchRequest) : List Event :=
  match checkLimit s.maxLimit r.limit with
  | .ok _ => if s.traceQueries then r.query.compile.events else []
  | .error _ => []

theorem checkLimit_eq_ok {largest : UInt32} {given : Option UInt32} {limit : Option Limit}
    (h : checkLimit largest given = .ok limit) : limit = given.bind Limit.of? := by
  cases given with
  | none =>
    cases h
    rfl
  | some n =>
    rw [checkLimit] at h
    split at h
    next l hof =>
      split at h
      · cases h
        exact hof.symm
      · cases h
    · cases h

theorem run_reportAll {ε : Type} (es : List Event) (t : Session) :
    Action.run (reportAll es : Action ε Unit) t =
      (.ok (), { t with events := t.events ++ es }) := by
  induction es generalizing t with
  | nil =>
    rw [List.append_nil]
    rfl
  | cons e es ih =>
    show Action.run (Action.report e >>= fun _ => reportAll es) t = _
    rw [Action.run_bind, Action.run_report]
    dsimp only
    rw [ih, List.append_assoc]
    rfl

/-- Compiling a search follows its plan and sends nothing. -/
theorem run_compileSearch (s : Service) (r : SearchRequest) (t : Session) :
    Action.run (s.compileSearch r) t = (s.plan r, { t with events := t.events ++ s.traced r }) := by
  rw [compileSearch, plan, traced, Action.run_bind, Action.run_ofExcept]
  cases hlimit : checkLimit s.maxLimit r.limit with
  | error e =>
    dsimp only
    rw [List.append_nil]
  | ok limit =>
    obtain rfl := checkLimit_eq_ok hlimit
    have hline (u : Session) : Action.run (do
        let line ← Action.ofExcept (r.query.compile.result.mapError ServiceError.date)
        if line = "" then throw (.invalidRequest .nothingToSearch)
        return r.asked line : ServiceAction (SearchParams × List String)) u =
          (r.ask r.query.compile.result, u) := by
      rw [Action.run_bind, Action.run_ofExcept]
      cases r.query.compile.result with
      | error e => rfl
      | ok line =>
        by_cases hempty : line = ""
        · subst hempty
          rfl
        · rw [SearchRequest.ask, if_neg hempty]
          dsimp only [Except.mapError]
          rw [if_neg hempty]
          rfl
    cases htrace : s.traceQueries with
    | false => exact (hline t).trans (by simp)
    | true =>
      exact (Action.run_bind_ok (run_reportAll r.query.compile.events t) _).trans (hline _)

end Service

end NoteTools
