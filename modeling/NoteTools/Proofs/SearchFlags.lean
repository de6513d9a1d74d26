import NoteTools.Proofs.PropertySpellings
import NoteTools.Proofs.QueryLead
import NoteTools.Proofs.SearchRun

/-!
# The flags of a search

A search is sent with a line and two flags, and the flags are decided from the request, not from the
line. They are right for the line all the same: the fast mode is asked for only when the line has
nothing that needs the content of notes, and archived notes are asked for whenever a condition of
the line is on the property that marks them.

Main definitions:

* `SearchRequest.FlagsFit`: the flags of a search fit its line.

Results:

* `Query.isFast_iff`, `Query.mentionsArchived_iff`: what the flags say of a query;
* `SearchRequest.flagsFit_asked`: the flags fit the line;
* `search_flags_fit`: every search that is sent.
-/

namespace NoteTools

open Grammar Http Text

/-- The flags of a search fit the line that is sent with them. -/
structure SearchRequest.FlagsFit (r : SearchRequest) (p : SearchParams) : Prop where
  /-- The line is that of the query, and it is not empty. -/
  compiled : r.query.compile.result = .ok p.search ∧ p.search ≠ ""
  /-- In the fast mode, the line leads with the condition that always holds. -/
  fast_lead : p.fastSearch = true → ∃ rest, p.search = baseCondition ++ " " ++ rest
  /-- In the fast mode, no text of the query and no criterion gives free text. -/
  fast_texts : p.fastSearch = true → (∀ t ∈ r.text, Text.blank t = true) ∧
    ∀ c ∈ r.criteria, ∀ text, c.fragment ≠ .ok (.freeText text)
  /-- In the fast mode, no condition on a note property is on the content. -/
  fast_content : p.fastSearch = true → ∀ c ∈ r.criteria, c.kind = .noteProperty →
    ∀ text, c.fragment = .ok (.condition text) → ∀ key ∈ contentKeys, ¬ConditionOn key text
  /-- Archived notes are asked for on request. -/
  archived_asked : r.includeArchived = true → p.includeArchivedNotes = true
  /-- Archived notes are asked for when a condition is on the property that marks them. -/
  archived_condition : ∀ c ∈ r.criteria, c.kind = .noteProperty →
    ∀ text, c.fragment = .ok (.condition text) → ConditionOn "isArchived" text →
      p.includeArchivedNotes = true

/-! ## What the flags say -/

namespace Query

variable {q : Query}

theorem mem_propertyKeys_iff {key : String} :
    key ∈ q.propertyKeys ↔ ∃ c ∈ q.criteria, c.kind = .noteProperty ∧
      Criterion.keyOf c.property = key := by
  rw [propertyKeys, List.mem_filterMap]
  refine exists_congr fun c => and_congr_right fun _ => ?_
  rw [Criterion.propertyKey?]
  cases c.kind <;> simp

/-- A search is fast when there is no free text and no criterion on the content. -/
theorem isFast_iff : q.isFast = true ↔ q.hasFreeText = false ∧
    ∀ c ∈ q.criteria, c.kind = .noteProperty → Criterion.keyOf c.property ∉ contentKeys := by
  simp only [isFast, Bool.and_eq_true, Bool.not_eq_true', List.any_eq_false, decide_eq_true_eq,
    mem_propertyKeys_iff]
  refine and_congr_right fun _ => ⟨fun h c hc hkind => h _ ⟨c, hc, hkind, rfl⟩, ?_⟩
  rintro h key ⟨c, hc, hkind, rfl⟩
  exact h c hc hkind

theorem mentionsArchived_iff : q.mentionsArchived = true ↔
    ∃ c ∈ q.criteria, c.kind = .noteProperty ∧ Criterion.keyOf c.property = "isArchived" := by
  simp only [mentionsArchived, List.any_eq_true, beq_iff_eq, exists_eq_right, mem_propertyKeys_iff]

/-- A query without free text has none in its text and its criteria. -/
theorem no_texts_of_hasFreeText (h : q.hasFreeText = false) :
    (∀ t ∈ q.text, Text.blank t = true) ∧
      ∀ c ∈ q.criteria, ∀ text, c.fragment ≠ .ok (.freeText text) := by
  rw [hasFreeText, Bool.or_eq_false_iff, Option.any_eq_false, List.any_eq_false] at h
  refine ⟨fun t ht => by simpa using h.1 t ht, fun c hc text hfragment => h.2 c hc ?_⟩
  rw [Criterion.freeText?_of_fragment hfragment]
  rfl

end Query

/-- **The flags fit the line.** -/
theorem SearchRequest.flagsFit_asked {r : SearchRequest} {line : String}
    (hline : r.query.compile.result = .ok line) (hne : line ≠ "") :
    r.FlagsFit (r.asked line).1 where
  compiled := ⟨hline, hne⟩
  fast_lead hfast := by
    obtain ⟨hfree, -⟩ := Query.isFast_iff.mp hfast
    obtain ⟨first, others, -, -, hlist⟩ := Query.exists_toList_line hline hfree hne
    refine ⟨.ofList (first.toList ++
      (spaced others ++ (limitText (r.query.limit.map fun n => n.value.toNat)).toList)), ?_⟩
    have hsearch : (r.asked line).1.search.toList = _ := hlist
    rw [← String.toList_inj, String.toList_append, String.toList_append, String.toList_ofList,
      List.append_assoc, String.toList_ofList, hsearch]
    rfl
  fast_texts hfast := by
    obtain ⟨hfree, -⟩ := Query.isFast_iff.mp hfast
    exact Query.no_texts_of_hasFreeText hfree
  fast_content hfast c hc hkind text htext key hkey hon := by
    rw [Criterion.conditionOn_iff hkind htext] at hon
    exact (Query.isFast_iff.mp hfast).2 c hc hkind (hon ▸ hkey)
  archived_asked h := Bool.or_eq_true_iff.mpr (.inl h)
  archived_condition c hc hkind text htext hon := by
    rw [Criterion.conditionOn_iff hkind htext] at hon
    exact Bool.or_eq_true_iff.mpr (.inr (Query.mentionsArchived_iff.mpr ⟨c, hc, hkind, hon⟩))

/-- What a search sends is the search for its plan. -/
theorem Service.requests_search (s : Service) (r : SearchRequest) (t : Session) :
    ∃ sent, (Action.run (s.search r) t).2.requests = t.requests ++ sent ∧
      ∀ request ∈ sent, ∃ p warnings e, s.plan r = .ok (p, warnings) ∧
        s.client.ready? = some e ∧ request = p.call.request s.client e := by
  obtain ⟨e, -, -, hrequests⟩ | ⟨p, warnings, hplan, hsteps⟩ := s.search_cases r t
  · exact ⟨[], by rw [hrequests, List.append_nil], by simp⟩
  obtain ⟨error, -, -, hrequests⟩ | ⟨x, next, hexchange, -, hrequests⟩ := hsteps
  · exact ⟨[], by rw [hrequests, List.append_nil], by simp⟩
  · refine ⟨[x.request], hrequests, fun request hmem => ?_⟩
    obtain rfl := List.mem_singleton.mp hmem
    obtain ⟨e, he, hrequest⟩ := Option.map_eq_some_iff.mp (Call.exchange_eq_ok hexchange).1
    exact ⟨p, warnings, e, hplan, he, hrequest.symm⟩

/-- **The flags of every search that is sent** fit the line that is sent with them. The key by which
the flags are decided is the key in the condition of the criterion; all spellings of a known key
have that key, and no other property has it. -/
theorem search_flags_fit :
    (∀ (s : Service) (r : SearchRequest) (t : Session),
      ∃ sent, (Action.run (s.search r) t).2.requests = t.requests ++ sent ∧
        ∀ request ∈ sent, ∃ p e, s.client.ready? = some e ∧
          request = p.call.request s.client e ∧ r.FlagsFit p ∧
          (s.client.HasPlainBase → s.client.Asks (.search p) request ∧
            request.query?.map FormUrl.decodePairs =
              some [("search", p.search), ("fastSearch", toString p.fastSearch),
                ("includeArchivedNotes", toString p.includeArchivedNotes)])) ∧
    (∀ (c : Criterion) (text : String), c.kind = .noteProperty →
      c.fragment = .ok (.condition text) → ∃ key, c.propertyKey? = some key ∧
        (∀ key', ConditionOn key' text ↔ key' = key) ∧ SpellsKey c.property key) ∧
    ∀ (key : String) (cls : PropertyClass), PropertyClass.of? key = some cls →
      ∀ property, Criterion.keyOf property = key ↔ SpellsKey property key := by
  refine ⟨fun s r t => ?_, fun c text hkind htext => ?_, fun key cls hcls _ =>
    keyOf_eq_iff_spellsKey hcls⟩
  · obtain ⟨sent, hsent, hrequests⟩ := s.requests_search r t
    refine ⟨sent, hsent, fun request hrequest => ?_⟩
    obtain ⟨p, warnings, e, hplan, he, rfl⟩ := hrequests request hrequest
    obtain ⟨line, hline, hne, hasked⟩ := Service.plan_eq_ok hplan
    have hfit := SearchRequest.flagsFit_asked hline hne
    rw [hasked] at hfit
    refine ⟨p, e, he, rfl, hfit, fun hbase => ?_⟩
    have hasks : s.client.Asks (.search p) (p.call.request s.client e) :=
      Client.asks_of_call hbase he (List.mem_singleton_self _) rfl rfl
    refine ⟨hasks, ?_⟩
    rw [hasks.query, Route.query?, Option.map_some, FormUrl.decodePairs_encodePairs]
    rfl
  · obtain ⟨a, cls, -, -, hcls⟩ := Criterion.exists_readsAtom hkind htext
    refine ⟨Criterion.keyOf c.property, ?_, fun key' => ?_, (keyOf_eq_iff_spellsKey hcls).mp rfl⟩
    · rw [Criterion.propertyKey?, hkind]
    · rw [Criterion.conditionOn_iff hkind htext, eq_comm]

/-- A criterion on archived notes, with blanks around its property. -/
def archiveCriterion : Criterion where
  property := " note.isArchived "
  kind := .noteProperty
  op := some "="
  value := some "true"

/-- A search with that criterion. -/
def archiveSearch : SearchRequest where
  criteria := [archiveCriterion, { property := "sea", kind := .label }]

/-- The request of that search. -/
def archiveRequest : Request where
  method := .get
  target := "/etapi/notes?search=note.noteId+%21%3D+%27%27+note.isArchived+%3D+true+%23sea" ++
    "&fastSearch=true&includeArchivedNotes=true"
  authorization := "etapi-token"
  contentType := none
  body := ""

theorem search_flags_fit_archive :
    (Action.run (tideService.search archiveSearch) (.start ⟨[tideReply], none⟩)).2.requests =
        [archiveRequest] ∧
      (∃ p, archiveSearch.FlagsFit p ∧ p.search = "note.noteId != '' note.isArchived = true #sea" ∧
        p.fastSearch = true ∧ p.includeArchivedNotes = true) ∧
      archiveCriterion.fragment = .ok (.condition "note.isArchived = true") ∧
      (∀ key, ConditionOn key "note.isArchived = true" ↔ key = "isArchived") ∧
      SpellsKey archiveCriterion.property "isArchived" := by
  have hrequests : (Action.run (tideService.search archiveSearch)
      (.start ⟨[tideReply], none⟩)).2.requests = [archiveRequest] := by decide +kernel
  have hpairs : archiveRequest.query?.map FormUrl.decodePairs =
      some [("search", "note.noteId != '' note.isArchived = true #sea"), ("fastSearch", "true"),
        ("includeArchivedNotes", "true")] := by decide +kernel
  have hfragment : archiveCriterion.fragment = .ok (.condition "note.isArchived = true") := by
    decide +kernel
  have hkey : archiveCriterion.propertyKey? = some "isArchived" := by decide +kernel
  obtain ⟨hsearches, hconditions, -⟩ := search_flags_fit
  obtain ⟨sent, hsent, hall⟩ := hsearches tideService archiveSearch (.start ⟨[tideReply], none⟩)
  obtain rfl : sent = [archiveRequest] := hsent.symm.trans hrequests
  obtain ⟨p, e, -, -, hfit, hplain⟩ := hall archiveRequest (List.mem_singleton_self _)
  obtain ⟨-, hquery⟩ := hplain (by decide)
  have hflag {b : Bool} (h : toString b = "true") : b = true := by
    cases b with
    | true => rfl
    | false => exact absurd h (by decide)
  obtain ⟨key, hkey', hiff, hspells⟩ :=
    hconditions archiveCriterion "note.isArchived = true" rfl hfragment
  obtain rfl : key = "isArchived" := Option.some.inj (hkey'.symm.trans hkey)
  rw [hpairs, Option.some_inj] at hquery
  simp only [List.cons.injEq, Prod.mk.injEq, true_and, and_true] at hquery
  obtain ⟨hsearch, hfast, harchived⟩ := hquery
  exact ⟨hrequests, ⟨p, hfit, hsearch.symm, hflag hfast.symm, hflag harchived.symm⟩, hfragment,
    hiff, hspells⟩

end NoteTools
