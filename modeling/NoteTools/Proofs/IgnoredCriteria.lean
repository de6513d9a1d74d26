import NoteTools.Proofs.CriteriaAccount
import NoteTools.Proofs.SearchFlags

/-!
# What ignored criteria still do

A search reports each dropped criterion as ignored. The line of the search is indeed that of the
search without those criteria, but the two flags are decided from all criteria. So a dropped
criterion on the content of notes can keep a search from the fast mode, and a dropped criterion on
the property that marks archived notes can bring those into the results. It does no more than that,
and it does that exactly when nothing else in the request does.

Main definitions:

* `SearchRequest.withoutDropped`: a request without the criteria that are reported as ignored;
* `SearchRequest.SlowedByDropped`, `WidenedByDropped`: when dropped criteria decide a flag;
* `DroppedSay`: what two searches are sent with, the second without the dropped criteria of the
  first;
* `IgnoredRun`: what these two searches do in a session.

Results:

* `SearchRequest.withoutDropped_compile`: the line without the dropped criteria;
* `SearchParams.request_injective`: different searches are different requests;
* `ignored_criteria_flags`: every search that is sent;
* `ignored_criterion_widens`: a search that a dropped criterion widens.
-/

namespace NoteTools

open Http Text

/-! ## Specification -/

namespace SearchRequest

variable (r : SearchRequest)

/-- The request without the criteria that are reported as ignored. -/
def withoutDropped : SearchRequest :=
  { r with criteria :=
      (r.criteria.zipIdx.filter fun x => x.2 ∉ r.query.compile.drops.map Drop.index).map Prod.fst }

/-- A dropped criterion is on one of some note properties. -/
def DropsOn (keys : List String) : Prop :=
  ∃ d ∈ r.query.compile.drops, d.criterion.kind = .noteProperty ∧
    Criterion.keyOf d.criterion.property ∈ keys

/-- A criterion that is not dropped is on one of some note properties. -/
def KeepsOn (keys : List String) : Prop :=
  ∃ c ∈ r.withoutDropped.criteria, c.kind = .noteProperty ∧ Criterion.keyOf c.property ∈ keys

/-- Only dropped criteria keep the search from the fast mode. -/
def SlowedByDropped : Prop :=
  r.DropsOn ["content", "text", "rawContent"] ∧ r.query.hasFreeText = false ∧
    ¬r.KeepsOn ["content", "text", "rawContent"]

/-- Only dropped criteria bring archived notes into the results. -/
def WidenedByDropped : Prop :=
  r.DropsOn ["isArchived"] ∧ r.includeArchived = false ∧ ¬r.KeepsOn ["isArchived"]

end SearchRequest

/-- What two searches are sent with, the second without the dropped criteria of the first. -/
structure DroppedSay (r : SearchRequest) (p p' : SearchParams) : Prop where
  /-- The lines are equal. -/
  search : p'.search = p.search
  /-- The first search is fast when the second is, unless dropped criteria slow it. -/
  fast : p.fastSearch = true ↔ p'.fastSearch = true ∧ ¬r.SlowedByDropped
  /-- What dropped criteria slow is fast without them. -/
  slowed : r.SlowedByDropped → p'.fastSearch = true
  /-- The first search finds archived notes when the second does, or when dropped criteria widen
  it. -/
  archived : p.includeArchivedNotes = true ↔ p'.includeArchivedNotes = true ∨ r.WidenedByDropped
  /-- What dropped criteria widen does not find archived notes without them. -/
  widened : r.WidenedByDropped → p'.includeArchivedNotes = false

/-- What a search does in a session, and what it does without the criteria that it reports. -/
structure IgnoredRun (s : Service) (r : SearchRequest) (t : Session) (e : Endpoint)
    (p p' : SearchParams) : Prop extends DroppedSay r p p' where
  /-- Each of the searches sends one request. -/
  sent : (Action.run (s.search r) t).2.requests = t.requests ++ [p.call.request s.client e]
  sentWithout : (Action.run (s.search r.withoutDropped) t).2.requests =
    t.requests ++ [p'.call.request s.client e]
  /-- The requests are equal exactly when dropped criteria decide no flag. -/
  same_iff : p.call.request s.client e = p'.call.request s.client e ↔
    ¬r.SlowedByDropped ∧ ¬r.WidenedByDropped
  /-- The answer to the first search has a warning for each dropped criterion. -/
  warned : ∀ response, (Action.run (s.search r) t).1 = .ok response →
    response.warnings = r.query.compile.drops.map Drop.warning
  /-- The answer to the second search has none. -/
  unwarned : ∀ response, (Action.run (s.search r.withoutDropped) t).1 = .ok response →
    response.warnings = []

/-! ## Dropped criteria leave nothing in the line -/

namespace Criterion

variable {c : Criterion}

/-- A dropped criterion gives no text, no condition and no error. -/
theorem nothing_of_dropReason? (h : c.dropReason?.isSome = true) :
    c.dateError? = none ∧ c.freeText? = none ∧ c.linked? = none := by
  obtain ⟨reason, hreason⟩ := Option.isSome_iff_exists.mp h
  have hfragment := fragment_of_dropReason? hreason
  refine ⟨?_, ?_, ?_⟩
  · simp [dateError?, hfragment]
  · exact c.freeText?_eq_none (by simp [hfragment])
  · exact linked?_eq_none (by simp [condition?, hfragment])

/-- What dropped criteria do not give is given by the others. -/
theorem filterMap_undropped {α : Type} {f : Criterion → Option α} (cs : List Criterion)
    (h : ∀ c : Criterion, c.dropReason?.isSome = true → f c = none) :
    (cs.filter fun c => c.dropReason?.isNone).filterMap f = cs.filterMap f := by
  rw [List.filterMap_filter]
  refine List.filterMap_congr fun c _ => ?_
  cases hdrop : c.dropReason? with
  | none => rfl
  | some reason => rw [h c (by rw [hdrop]; rfl)]; rfl

end Criterion

namespace SearchRequest

variable {r : SearchRequest} {line : String}

/-- The criteria that are not reported are those that are not dropped. -/
theorem criteria_withoutDropped (h : r.query.compile.result = .ok line) :
    r.withoutDropped.criteria = r.criteria.filter fun c => c.dropReason?.isNone := by
  have hdropped : ∀ x ∈ r.criteria.zipIdx,
      decide (x.2 ∉ r.query.compile.drops.map Drop.index) = x.1.dropReason?.isNone := by
    rintro ⟨c, i⟩ hmem
    have hget : r.query.criteria[i]? = some c := List.mem_zipIdx_iff_getElem?.mp hmem
    have hiff : i ∈ r.query.compile.drops.map Drop.index ↔ c.dropReason?.isSome = true := by
      rw [List.mem_map, Query.exists_drop_iff h, Option.isSome_iff_exists]
      simp [hget]
    cases hdrop : c.dropReason? <;> simp [hiff, hdrop]
  calc r.withoutDropped.criteria
      = (r.criteria.zipIdx.filter ((fun c => c.dropReason?.isNone) ∘ Prod.fst)).map Prod.fst :=
        congrArg (List.map Prod.fst) (List.filter_congr hdropped)
    _ = (r.criteria.zipIdx.map Prod.fst).filter fun c => c.dropReason?.isNone :=
        List.filter_map.symm
    _ = r.criteria.filter fun c => c.dropReason?.isNone := by rw [List.zipIdx_map_fst]

/-- **Dropped criteria leave nothing in the line**, and without them nothing is dropped. -/
theorem withoutDropped_compile (h : r.query.compile.result = .ok line) :
    r.withoutDropped.query.compile.result = .ok line ∧
      r.withoutDropped.query.compile.drops = [] ∧
      r.withoutDropped.query.hasFreeText = r.query.hasFreeText := by
  have hcriteria := criteria_withoutDropped h
  have hfree : r.withoutDropped.criteria.filterMap Criterion.freeText? =
      r.criteria.filterMap Criterion.freeText? := by
    rw [hcriteria]
    exact Criterion.filterMap_undropped r.criteria fun c hc =>
      (Criterion.nothing_of_dropReason? hc).2.1
  have hlinked : r.withoutDropped.criteria.filterMap Criterion.linked? =
      r.criteria.filterMap Criterion.linked? := by
    rw [hcriteria]
    exact Criterion.filterMap_undropped r.criteria fun c hc =>
      (Criterion.nothing_of_dropReason? hc).2.2
  have hdate : r.withoutDropped.criteria.findSome? Criterion.dateError? =
      r.criteria.findSome? Criterion.dateError? := by
    have hnone := Query.dateError?_eq_none h
    rw [show r.criteria.findSome? Criterion.dateError? = none from hnone, hcriteria,
      List.findSome?_eq_none_iff]
    exact fun c hc => List.findSome?_eq_none_iff.mp hnone c (List.mem_of_mem_filter hc)
  have hline : r.withoutDropped.query.compile.result = .ok line :=
    (compile_result_congr (q := r.query) hdate hfree (congrArg unlinkLast hlinked)).trans h
  refine ⟨hline, ?_, ?_⟩
  · rw [compile_drops hline, droppedCriteria, List.filterMap_eq_nil_iff]
    rintro ⟨c, i⟩ hmem
    have hc : c ∈ r.withoutDropped.criteria := List.fst_mem_of_mem_zipIdx hmem
    rw [hcriteria, List.mem_filter, Option.isNone_iff_eq_none] at hc
    exact Option.map_eq_none_iff.mpr hc.2
  · have htexts : r.withoutDropped.query.texts = r.query.texts := by
      rw [Query.texts, Query.texts]
      exact congrArg _ (congrArg _ hfree)
    rw [Bool.eq_iff_iff, Query.hasFreeText_iff, Query.hasFreeText_iff, htexts]

/-- A criterion on a note property is a kept one, or is reported. -/
theorem mentions_iff (h : r.query.compile.result = .ok line) (keys : List String) :
    (∃ c ∈ r.criteria, c.kind = .noteProperty ∧ Criterion.keyOf c.property ∈ keys) ↔
      r.KeepsOn keys ∨ r.DropsOn keys := by
  rw [KeepsOn, criteria_withoutDropped h, DropsOn, compile_drops h, droppedCriteria_eq_marked]
  constructor
  · rintro ⟨c, hc, hon⟩
    cases hdrop : c.dropReason? with
    | none => exact .inl ⟨c, List.mem_filter.mpr ⟨hc, by rw [hdrop]; rfl⟩, hon⟩
    | some reason =>
      obtain ⟨i, hi⟩ := List.mem_iff_getElem?.mp hc
      exact .inr ⟨⟨i, c, reason⟩, mem_marked_iff.mpr ⟨i, c, reason, hi, hdrop, rfl⟩, hon⟩
  · rintro (⟨c, hc, hon⟩ | ⟨d, hd, hon⟩)
    · exact ⟨c, List.mem_of_mem_filter hc, hon⟩
    · obtain ⟨i, c, reason, hi, -, rfl⟩ := mem_marked_iff.mp hd
      exact ⟨c, List.mem_of_getElem? hi, hon⟩

/-! ## The flags with and without dropped criteria -/

theorem isFast_iff (h : r.query.compile.result = .ok line) :
    r.query.isFast = true ↔ r.query.hasFreeText = false ∧
      ¬(r.KeepsOn ["content", "text", "rawContent"] ∨
        r.DropsOn ["content", "text", "rawContent"]) := by
  rw [Query.isFast_iff, ← mentions_iff h]
  push Not
  rfl

theorem mentionsArchived_iff (h : r.query.compile.result = .ok line) :
    r.query.mentionsArchived = true ↔ r.KeepsOn ["isArchived"] ∨ r.DropsOn ["isArchived"] := by
  rw [Query.mentionsArchived_iff, ← mentions_iff h]
  simp only [List.mem_singleton]
  rfl

/-- Without the dropped criteria, only the kept ones have a say. -/
theorem keepsOn_withoutDropped (h : r.query.compile.result = .ok line) (keys : List String) :
    r.withoutDropped.KeepsOn keys ∨ r.withoutDropped.DropsOn keys ↔ r.KeepsOn keys := by
  rw [← mentions_iff (withoutDropped_compile h).1, KeepsOn]

theorem isFast_withoutDropped (h : r.query.compile.result = .ok line) :
    r.withoutDropped.query.isFast = true ↔ r.query.hasFreeText = false ∧
      ¬r.KeepsOn ["content", "text", "rawContent"] := by
  obtain ⟨hline, -, hfree⟩ := withoutDropped_compile h
  rw [isFast_iff hline, keepsOn_withoutDropped h, hfree]

theorem mentionsArchived_withoutDropped (h : r.query.compile.result = .ok line) :
    r.withoutDropped.query.mentionsArchived = true ↔ r.KeepsOn ["isArchived"] := by
  rw [mentionsArchived_iff (withoutDropped_compile h).1, keepsOn_withoutDropped h]

/-- The line is the same without the dropped criteria, and they have the say on the flags that
nothing else has. -/
theorem droppedSay_asked (h : r.query.compile.result = .ok line) :
    DroppedSay r (r.asked line).1 (r.withoutDropped.asked line).1 where
  search := rfl
  fast := by
    show r.query.isFast = true ↔ r.withoutDropped.query.isFast = true ∧ _
    rw [isFast_iff h, isFast_withoutDropped h, SlowedByDropped]
    tauto
  slowed hslowed := (isFast_withoutDropped h).mpr hslowed.2
  archived := by
    show (r.includeArchived || r.query.mentionsArchived) = true ↔
      (r.includeArchived || r.withoutDropped.query.mentionsArchived) = true ∨ _
    rw [Bool.or_eq_true, Bool.or_eq_true, mentionsArchived_iff h,
      mentionsArchived_withoutDropped h, WidenedByDropped, ← Bool.not_eq_true]
    tauto
  widened hwidened := by
    obtain ⟨-, hasked, hkept⟩ := hwidened
    rw [← mentionsArchived_withoutDropped h, Bool.not_eq_true] at hkept
    exact Bool.or_eq_false_iff.mpr ⟨hasked, hkept⟩

end SearchRequest

/-- The two searches are the same one exactly when dropped criteria decide no flag. -/
theorem DroppedSay.eq_iff {r : SearchRequest} {p p' : SearchParams} (h : DroppedSay r p p') :
    p = p' ↔ ¬r.SlowedByDropped ∧ ¬r.WidenedByDropped := by
  constructor
  · rintro rfl
    refine ⟨fun hslowed => (h.fast.mp (h.slowed hslowed)).2 hslowed, fun hwidened => ?_⟩
    exact Bool.eq_false_iff.mp (h.widened hwidened) (h.archived.mpr (.inr hwidened))
  · rintro ⟨hslowed, hwidened⟩
    have hfast : p.fastSearch = p'.fastSearch := by
      rw [Bool.eq_iff_iff, h.fast, and_iff_left hslowed]
    have harchived : p.includeArchivedNotes = p'.includeArchivedNotes := by
      rw [Bool.eq_iff_iff, h.archived, or_iff_left hwidened]
    obtain ⟨search, fast, archived⟩ := p
    rw [SearchParams.mk.injEq]
    exact ⟨h.search.symm, hfast, harchived⟩

/-! ## Requests -/

/-- Named values stand at the end of a request line. -/
theorem Http.Endpoint.exists_target (e : Endpoint) : ∃ front, ∀ pairs,
    (e.withQuery pairs).target = front ++ FormUrl.encodePairs pairs := by
  obtain ⟨origin, segments, query, fragment⟩ := e
  let path := if segments = [] then "/" else pathText segments
  have hbare : ∃ front, ∀ pairs,
      path ++ ("?" ++ FormUrl.encodePairs pairs) = front ++ FormUrl.encodePairs pairs :=
    ⟨path ++ "?", fun pairs => (String.append_assoc ..).symm⟩
  cases query with
  | none => exact hbare
  | some q =>
    show ∃ front, ∀ pairs, path ++ ("?" ++ if q = "" then _ else _) = _
    by_cases hempty : q = ""
    · simp only [if_pos hempty]
      exact hbare
    · simp only [if_neg hempty]
      refine ⟨path ++ ("?" ++ (q ++ "&")), fun pairs => ?_⟩
      simp only [String.append_assoc]

/-- Different searches are different requests. -/
theorem SearchParams.request_injective {c : Client} {e : Endpoint} {p p' : SearchParams}
    (h : p.call.request c e = p'.call.request c e) : p = p' := by
  obtain ⟨front, hfront⟩ := (e.below ["notes"]).exists_target
  have htarget : ((e.below ["notes"]).withQuery p.pairs).target =
      ((e.below ["notes"]).withQuery p'.pairs).target := congrArg Request.target h
  rw [hfront, hfront, ← String.toList_inj, String.toList_append, String.toList_append,
    List.append_cancel_left_eq, String.toList_inj] at htarget
  have hpairs := congrArg FormUrl.decodePairs htarget
  rw [FormUrl.decodePairs_encodePairs, FormUrl.decodePairs_encodePairs] at hpairs
  exact SearchParams.pairs_injective hpairs

/-! ## Searches with and without dropped criteria -/

namespace Service

variable {s : Service} {r : SearchRequest} {t : Session}

/-- A search that sends something has a plan, and a reply is there. -/
theorem exists_plan_of_sent (h : (Action.run (s.search r) t).2.requests ≠ t.requests) :
    ∃ p warnings e reply next, s.plan r = .ok (p, warnings) ∧ s.client.ready? = some e ∧
      t.server.answer = some (reply, next) := by
  obtain ⟨e, -, -, hrequests⟩ | ⟨p, warnings, hplan, hsteps⟩ := s.search_cases r t
  · exact absurd hrequests h
  obtain ⟨error, -, -, hrequests⟩ | ⟨x, next, hexchange, -⟩ := hsteps
  · exact absurd hrequests h
  · obtain ⟨hrequest, hanswer⟩ := Call.exchange_eq_ok hexchange
    obtain ⟨e, he, -⟩ := Option.map_eq_some_iff.mp hrequest
    exact ⟨p, warnings, e, _, _, hplan, he, hanswer⟩

/-- Beside its line, only the limit of a search decides whether it has a plan. -/
theorem plan_of_limit {r' : SearchRequest} {plan : SearchParams × List String} {line : String}
    (h : s.plan r = .ok plan) (hlimit : r'.limit = r.limit)
    (hline : r'.query.compile.result = .ok line) (hne : line ≠ "") :
    s.plan r' = .ok (r'.asked line) := by
  rw [Service.plan] at h ⊢
  rw [hlimit, hline, SearchRequest.ask, if_neg hne]
  cases hcheck : checkLimit s.maxLimit r.limit with
  | error error =>
    rw [hcheck] at h
    cases h
  | ok limit => rfl

end Service

/-- **What ignored criteria do.** For every search that is sent: without the criteria that are
reported as ignored, the line is the same, nothing is reported, and the flags differ exactly when
they were decided by those criteria alone. -/
theorem ignored_criteria_flags (s : Service) (r : SearchRequest) (t : Session)
    (hsent : (Action.run (s.search r) t).2.requests ≠ t.requests) :
    ∃ e p p', s.client.ready? = some e ∧ IgnoredRun s r t e p p' := by
  obtain ⟨p, warnings, e, reply, next, hplan, he, hanswer⟩ := Service.exists_plan_of_sent hsent
  obtain ⟨line, hline, hne, hasked⟩ := Service.plan_eq_ok hplan
  obtain ⟨hline', hdrops, -⟩ := SearchRequest.withoutDropped_compile hline
  have hplan' : s.plan r.withoutDropped = .ok (r.withoutDropped.asked line) :=
    Service.plan_of_limit hplan rfl hline' hne
  have hsay := SearchRequest.droppedSay_asked hline
  rw [hasked] at hsay
  change DroppedSay r p _ at hsay
  refine ⟨e, p, (r.withoutDropped.asked line).1, he, hsay, ?_, ?_, ?_, ?_, ?_⟩
  · exact (Service.run_search_of_ok hplan he hanswer).2
  · exact (Service.run_search_of_ok hplan' he hanswer).2
  · rw [← hsay.eq_iff]
    exact ⟨SearchParams.request_injective, fun heq => by rw [heq]⟩
  · exact fun response hresponse => (Service.warned_of_ok hresponse).2
  · intro response hresponse
    rw [(Service.warned_of_ok hresponse).2, hdrops, List.map_nil]

/-- A search with a criterion that is dropped: the value is not one of those for archived notes. -/
def wideSearch : SearchRequest where
  text := some "tide"
  criteria :=
    [{ property := "isArchived", kind := .noteProperty, op := some "=", value := some "maybe" }]

theorem ignored_criteria_flags_wide :
    (Action.run (tideService.search wideSearch) (.start ⟨[tideReply], none⟩)).2.requests ≠ [] ∧
      ∃ e p p', tideService.client.ready? = some e ∧
        IgnoredRun tideService wideSearch (.start ⟨[tideReply], none⟩) e p p' := by
  have hsent : (Action.run (tideService.search wideSearch)
      (.start ⟨[tideReply], none⟩)).2.requests ≠ [] := by decide +kernel
  exact ⟨hsent, ignored_criteria_flags tideService wideSearch (.start ⟨[tideReply], none⟩) hsent⟩

/-- The criterion is reported as ignored, and archived notes are found because of it. -/
theorem ignored_criterion_widens :
    ((Action.run (tideService.search wideSearch) (.start ⟨[tideReply], none⟩)).1.map
        SearchResponse.warnings) =
        .ok ["criteria[0] (isArchived) was ignored: expected true or false, got 'maybe'."] ∧
      (Action.run (tideService.search wideSearch) (.start ⟨[tideReply], none⟩)).2.requests.map
          Request.target =
        ["/etapi/notes?search=tide&fastSearch=false&includeArchivedNotes=true"] ∧
      wideSearch.withoutDropped = { wideSearch with criteria := [] } ∧
      (Action.run (tideService.search wideSearch.withoutDropped)
          (.start ⟨[tideReply], none⟩)).2.requests.map Request.target =
        ["/etapi/notes?search=tide&fastSearch=false&includeArchivedNotes=false"] := by
  decide +kernel

end NoteTools
