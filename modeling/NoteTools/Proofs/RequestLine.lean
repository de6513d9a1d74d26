import NoteTools.Proofs.FormQuery
import NoteTools.Http.Endpoint
import NoteTools.Http.Message

/-!
# Request lines

A request line names a path and, behind the first `?`, a query. The path is cut into its segments at
the slashes. No segment of an endpoint has a character at which a request line is cut, so that the
segments and the query under an endpoint are read back as they were put there.

Main definitions:

* `Request.segments`, `Request.query?`: the path and the query on a request line;
* `IsSegment`: the texts that are one segment wherever they stand in a path;
* `Endpoint.IsBare`: an endpoint without a query and a fragment.

Results:

* `segments_of_target`, `query?_of_target`: the parts of a request line are read back;
* `Endpoint.isSegment_of_read?`: the segments of an address that was read;
* `Endpoint.isBare_of_read?`: an address without `?` and `#` is an endpoint and nothing more.
-/

namespace NoteTools

open Text

namespace Http

/-! ## Reading a request line -/

/-- The segments of the path on the request line. -/
def Request.segments (r : Request) : List String :=
  ((splitOn (· == '/') (breakAt (· == '?') r.target.toList).1).drop 1).map String.ofList

/-- The query on the request line, if there is one. -/
def Request.query? (r : Request) : Option String :=
  match (breakAt (· == '?') r.target.toList).2 with
  | [] => none
  | _ :: query => some (String.ofList query)

/-- A text that is one segment wherever it stands in a path. -/
def IsSegment (s : String) : Prop :=
  ∀ c ∈ s.toList, c ∉ ['/', '?', '#']

instance (s : String) : Decidable (IsSegment s) :=
  List.decidableBAll (fun c => c ∉ ['/', '?', '#']) s.toList

/-- A query as it stands on a request line. -/
def queryText : Option String → String
  | none => ""
  | some query => "?" ++ query

namespace Endpoint

theorem pathText_nil : pathText [] = "" := rfl

theorem pathText_cons (s : String) (segments : List String) :
    pathText (s :: segments) = "/" ++ s ++ pathText segments := by
  rw [pathText, List.map_cons, String.join_cons]
  rfl

theorem pathText_append (front back : List String) :
    pathText (front ++ back) = pathText front ++ pathText back := by
  rw [← String.toList_inj]
  simp only [pathText, List.map_append, String.toList_append, String.toList_join,
    List.flatMap_append]

theorem toList_pathText_cons (s : String) (segments : List String) :
    (pathText (s :: segments)).toList = '/' :: s.toList ++ (pathText segments).toList := by
  rw [pathText_cons, String.toList_append, String.toList_append]
  rfl

/-- A path has slashes and its segments. -/
theorem of_mem_pathText {segments : List String} {c : Char}
    (h : c ∈ (pathText segments).toList) : c = '/' ∨ ∃ s ∈ segments, c ∈ s.toList := by
  rw [pathText, String.toList_join, List.mem_flatMap] at h
  obtain ⟨text, htext, hc⟩ := h
  obtain ⟨s, hs, rfl⟩ := List.mem_map.mp htext
  obtain rfl | hc : c = '/' ∨ c ∈ s.toList := by simpa using hc
  · exact .inl rfl
  · exact .inr ⟨s, hs, hc⟩

/-- The segments of a path are read back behind any text, where they are cut at the slashes of the
path only. -/
theorem splitOn_append_pathText {p : Char → Bool} (hp : p '/' = true) {segments : List String}
    (h : ∀ s ∈ segments, ∀ c ∈ s.toList, p c = false) (cs : List Char) :
    (splitOn p (cs ++ (pathText segments).toList)).drop 1 =
      (splitOn p cs).drop 1 ++ segments.map String.toList := by
  induction segments generalizing cs with
  | nil =>
    show (splitOn p (cs ++ [])).drop 1 = _ ++ []
    rw [List.append_nil, List.append_nil]
  | cons s segments ih =>
    obtain ⟨hs, hsegments⟩ := List.forall_mem_cons.mp h
    have hlength : 1 ≤ (splitOn p cs).length := List.length_pos_iff.mpr (splitOn_ne_nil p cs)
    rw [toList_pathText_cons, ← List.append_assoc, ih hsegments, splitOn_append hp,
      splitOn_eq_singleton hs, List.drop_append_of_le_length hlength, List.append_assoc,
      List.map_cons, List.singleton_append]

/-- A path is not cut as a request line is. -/
theorem notMem_pathText {segments : List String} (h : ∀ s ∈ segments, IsSegment s) :
    ∀ c ∈ (pathText segments).toList, c ≠ '?' ∧ c ≠ '#' := by
  intro c hc
  obtain rfl | ⟨s, hs, hc⟩ := of_mem_pathText hc
  · decide
  · have hsegment := h s hs c hc
    simp only [List.mem_cons, not_or] at hsegment
    exact ⟨hsegment.2.1, hsegment.2.2.1⟩

end Endpoint

section
variable {request : Request} {segments : List String} {query : Option String}

theorem breakAt_target (h : ∀ s ∈ segments, IsSegment s)
    (htarget : request.target = Endpoint.pathText segments ++ queryText query) :
    breakAt (· == '?') request.target.toList =
      ((Endpoint.pathText segments).toList, (queryText query).toList) := by
  have hpath : ∀ c ∈ (Endpoint.pathText segments).toList, (c == '?') = false := fun c hc =>
    beq_eq_false_iff_ne.mpr (Endpoint.notMem_pathText h c hc).1
  rw [htarget, String.toList_append]
  cases query with
  | none =>
    show breakAt (· == '?') (_ ++ []) = (_, [])
    rw [List.append_nil, breakAt_eq_self hpath]
  | some query =>
    have hquery : (queryText (some query)).toList = '?' :: query.toList := by
      rw [queryText, String.toList_append]
      rfl
    rw [hquery, breakAt_append_cons hpath rfl]

/-- The segments of a request line are read back. -/
theorem segments_of_target (h : ∀ s ∈ segments, IsSegment s)
    (htarget : request.target = Endpoint.pathText segments ++ queryText query) :
    request.segments = segments := by
  have hslash : ∀ s ∈ segments, ∀ c ∈ s.toList, (c == '/') = false := fun s hs c hc =>
    beq_eq_false_iff_ne.mpr fun heq => h s hs c hc (heq ▸ List.mem_cons_self)
  have hcut : (splitOn (· == '/') (Endpoint.pathText segments).toList).drop 1 = _ :=
    Endpoint.splitOn_append_pathText rfl hslash []
  rw [Request.segments, breakAt_target h htarget, hcut, splitOn, List.drop_one, List.tail_cons,
    List.nil_append, List.map_map]
  exact (List.map_congr_left fun s _ => String.ofList_toList).trans (List.map_id _)

/-- The query of a request line is read back. -/
theorem query?_of_target (h : ∀ s ∈ segments, IsSegment s)
    (htarget : request.target = Endpoint.pathText segments ++ queryText query) :
    request.query? = query := by
  rw [Request.query?, breakAt_target h htarget]
  cases query with
  | none => rfl
  | some query =>
    have hquery : (queryText (some query)).toList = '?' :: query.toList := by
      rw [queryText, String.toList_append]
      rfl
    dsimp only
    rw [hquery]
    dsimp only
    rw [String.ofList_toList]

end

/-! ## Addresses that were read -/

/-- A character of a percent-encoded part stands for itself or belongs to an octet. -/
theorem of_mem_percentEncode {special cs : List Char} {c : Char}
    (h : c ∈ percentEncode special cs) :
    (c ∈ cs ∧ c ∉ special) ∨ FormUrl.isFormChar c = true := by
  obtain ⟨d, hd, hc⟩ := List.mem_flatMap.mp h
  split at hc
  · obtain ⟨b, -, hb⟩ := List.mem_flatMap.mp hc
    exact .inr (FormUrl.isFormChar_of_mem_percent hb)
  · next hspecial =>
    obtain rfl := List.mem_singleton.mp hc
    exact .inl ⟨hd, fun hmem => hspecial (.inr (.inr hmem))⟩

theorem mem_of_mem_resolve {above segments : List String} {s : String}
    (h : s ∈ resolve above segments) : s ∈ above ∨ s ∈ segments := by
  induction segments generalizing above with
  | nil => exact .inl h
  | cons next segments ih =>
    rw [resolve] at h
    split at h
    · exact (ih h).imp_right (List.mem_cons_of_mem next)
    split at h
    · obtain h | h := ih h
      · exact .inl (List.mem_of_mem_tail h)
      · exact .inr (List.mem_cons_of_mem next h)
    · obtain h | h := ih h
      · obtain rfl | h := List.mem_cons.mp h
        · exact .inr List.mem_cons_self
        · exact .inl h
      · exact .inr (List.mem_cons_of_mem next h)

namespace Endpoint

variable {text : String} {e : Endpoint}

theorem toList_encoded (special cs : List Char) :
    (encoded special cs).toList = percentEncode special cs :=
  String.toList_ofList

/-- The segments of a path are cut and percent-encoded. -/
theorem isSegment_of_mem_readPath {cs : List Char} {s : String} (hs : s ∈ readPath cs) :
    IsSegment s := by
  intro c hc hmem
  have hs := (mem_of_mem_resolve (List.mem_reverse.mp hs)).resolve_left List.not_mem_nil
  obtain ⟨piece, hpiece, rfl⟩ := List.mem_map.mp hs
  rw [toList_encoded] at hc
  obtain ⟨hc, hspecial⟩ | hform := of_mem_percentEncode hc
  · have hslash := (of_mem_splitOn (List.mem_of_mem_drop hpiece) hc).2
    simp only [List.mem_cons, List.not_mem_nil, or_false] at hmem
    obtain rfl | rfl | rfl := hmem
    · cases hslash
    · exact hspecial (by decide)
    · exact hspecial (by decide)
  · simp only [List.mem_cons, List.not_mem_nil, or_false] at hmem
    obtain rfl | rfl | rfl := hmem <;> cases hform

theorem segments_behind (origin : String) (cs : List Char) :
    (behind origin cs).segments = readPath (breakAt endsPath cs).1 := by
  rw [behind]
  generalize breakAt endsPath cs = cut
  obtain ⟨path, rest⟩ := cut
  dsimp only
  split <;> rfl

/-- The segments of an address that was read are segments. -/
theorem isSegment_of_read? (h : read? text = some e) : ∀ s ∈ e.segments, IsSegment s := by
  simp only [read?, Option.bind_eq_bind, Option.bind_eq_some_iff, Option.pure_def,
    Option.some.injEq] at h
  obtain ⟨⟨scheme, own, rest⟩, -, host, -, rfl⟩ := h
  intro s hs
  rw [segments_behind] at hs
  exact isSegment_of_mem_readPath hs

/-- Nothing stands behind the path of an address. -/
def IsBare (e : Endpoint) : Prop :=
  e.query = none ∧ e.fragment = none

/-- A scheme is what stands in front of the first colon. -/
theorem readScheme?_eq_some_iff {cs rest : List Char} {scheme : String} {own : Nat} :
    readScheme? cs = some (scheme, own, rest) ↔
      ∃ name, breakAt (· == ':') cs = (name, ':' :: rest) ∧
        lowerAscii (String.ofList name) = scheme ∧
        (scheme = "http" ∧ own = 80 ∨ scheme = "https" ∧ own = 443) := by
  unfold readScheme?
  generalize breakAt (· == ':') cs = cut
  obtain ⟨name, back⟩ := cut
  dsimp only
  constructor
  · intro h
    split at h
    next hname =>
      cases h
      exact ⟨name, rfl, hname, .inl ⟨rfl, rfl⟩⟩
    next hname =>
      cases h
      exact ⟨name, rfl, hname, .inr ⟨rfl, rfl⟩⟩
    · cases h
  · rintro ⟨name, hcut, hname, ⟨rfl, rfl⟩ | ⟨rfl, rfl⟩⟩
    · cases hcut
      simp only [hname]
    · cases hcut
      simp only [hname]

theorem mem_of_mem_readScheme? {cs rest : List Char} {scheme : String} {own : Nat}
    (h : readScheme? cs = some (scheme, own, rest)) {c : Char} (hc : c ∈ rest) : c ∈ cs := by
  obtain ⟨name, hcut, -⟩ := readScheme?_eq_some_iff.mp h
  have hmem : c ∈ (breakAt (· == ':') cs).2 := by
    rw [hcut]
    exact List.mem_cons_of_mem ':' hc
  exact of_mem_breakAt_snd hmem

theorem mem_of_mem_significant {cs : List Char} {c : Char} (h : c ∈ significant cs) : c ∈ cs :=
  (List.dropWhile_sublist _).subset (List.mem_filter.mp h).1

/-- Nothing stands behind a path that is not ended. -/
theorem isBare_behind {origin : String} {cs : List Char} (h : ∀ c ∈ cs, endsPath c = false) :
    (behind origin cs).IsBare := by
  rw [behind, breakAt_eq_self h]
  exact ⟨rfl, rfl⟩

/-- An address without `?` and `#` is an endpoint and nothing more. -/
theorem isBare_of_read? (h : read? text = some e) (hquery : '?' ∉ text.toList)
    (hfragment : '#' ∉ text.toList) : e.IsBare := by
  simp only [read?, Option.bind_eq_bind, Option.bind_eq_some_iff, Option.pure_def,
    Option.some.injEq] at h
  obtain ⟨⟨scheme, own, rest⟩, hscheme, host, -, rfl⟩ := h
  refine isBare_behind fun c hc => ?_
  have hmem : c ∈ text.toList := mem_of_mem_significant <| mem_of_mem_readScheme? hscheme <|
    (List.dropWhile_sublist _).subset (of_mem_breakAt_snd hc)
  rw [endsPath, Bool.or_eq_false_iff, beq_eq_false_iff_ne, beq_eq_false_iff_ne]
  exact ⟨fun heq => hquery (heq ▸ hmem), fun heq => hfragment (heq ▸ hmem)⟩

end Endpoint

end Http

end NoteTools
