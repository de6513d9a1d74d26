import NoteTools.Api.Client
import NoteTools.Proofs.RequestLine
import NoteTools.Proofs.TrimmedText

/-!
# Paths behind an address

A client puts a path behind its address and reads the two as one text. The paths of its calls are
made of the characters of ids, none of which ends a part of an address or is encoded in one. So an
address with such a path behind it is read as the address, with the path below it.

Main definitions:

* `IsPlain`: segments made of the characters of ids.

Results:

* `Endpoint.behind_append_pathText`: the path goes behind the last part of an address;
* `Endpoint.read?_append_pathText`: an address with a path behind it;
* `Client.place?_of_isPlain`: where a path below the address of a client is.
-/

namespace NoteTools

open Http Text

/-! ## Characters of ids -/

theorem toNat_of_isIdChar {c : Char} (h : isIdChar c = true) : 0x2D ≤ c.toNat ∧ c.toNat ≤ 0x7A := by
  delta isIdChar Char.isAlphanum Char.isAlpha Char.isUpper Char.isLower Char.isDigit at h
  simp only [Bool.or_eq_true, Bool.and_eq_true, decide_eq_true_eq, beq_iff_eq,
    UInt32.le_iff_toNat_le] at h
  rcases h with (((⟨h, h'⟩ | ⟨h, h'⟩) | ⟨h, h'⟩) | rfl) | rfl
  · exact ⟨Nat.le_trans (by decide) h, Nat.le_trans h' (by decide)⟩
  · exact ⟨Nat.le_trans (by decide) h, Nat.le_trans h' (by decide)⟩
  · exact ⟨Nat.le_trans (by decide) h, Nat.le_trans h' (by decide)⟩
  · decide
  · decide

theorem isIdChar_toLower {c : Char} (h : isIdChar c = true) : isIdChar c.toLower = true :=
  forall_ascii (P := fun c => isIdChar c = true → isIdChar c.toLower = true) (by decide +kernel)
    (Nat.lt_of_le_of_lt (toNat_of_isIdChar h).2 (by decide)) h

/-- A character of ids is none of those that are not. -/
theorem notMem_of_isIdChar {others : List Char} (hothers : others.any isIdChar = false)
    {c : Char} (h : isIdChar c = true) : c ∉ others :=
  fun hmem => List.any_eq_false.mp hothers c hmem h

namespace Http

/-! ## Plain paths -/

/-- Segments made of the characters of ids. -/
def IsPlain (segments : List String) : Prop :=
  ∀ s ∈ segments, s.toList.all isIdChar = true

instance (segments : List String) : Decidable (IsPlain segments) :=
  inferInstanceAs (Decidable (∀ s ∈ segments, s.toList.all isIdChar = true))

section
variable {segments : List String} (h : IsPlain segments)
include h

theorem IsPlain.isIdChar {s : String} (hs : s ∈ segments) {c : Char} (hc : c ∈ s.toList) :
    isIdChar c = true :=
  List.all_eq_true.mp (h s hs) c hc

/-- The path has slashes and characters of ids. -/
theorem IsPlain.of_mem_pathText {c : Char} (hc : c ∈ (Endpoint.pathText segments).toList) :
    c = '/' ∨ NoteTools.isIdChar c = true := by
  obtain rfl | ⟨s, hs, hc⟩ := Endpoint.of_mem_pathText hc
  · exact .inl rfl
  · exact .inr (h.isIdChar hs hc)

/-- The characters of the path that are not special are the ones of the path. -/
theorem IsPlain.notMem {others : List Char} (hslash : '/' ∉ others)
    (hothers : others.any NoteTools.isIdChar = false) {c : Char}
    (hc : c ∈ (Endpoint.pathText segments).toList) : c ∉ others := by
  obtain rfl | hc := h.of_mem_pathText hc
  · exact hslash
  · exact notMem_of_isIdChar hothers hc

theorem IsPlain.toNat_of_mem {c : Char} (hc : c ∈ (Endpoint.pathText segments).toList) :
    0x20 < c.toNat ∧ c.toNat < 0x7F := by
  obtain rfl | hc := h.of_mem_pathText hc
  · decide
  · have := toNat_of_isIdChar hc
    omega

end

/-! ## Parts of an address -/

/-- Characters that can stand in a part are not encoded. -/
theorem percentEncode_eq_self {special cs : List Char}
    (h : ∀ c ∈ cs, (0x20 < c.toNat ∧ c.toNat < 0x7F) ∧ c ∉ special) :
    percentEncode special cs = cs := by
  induction cs with
  | nil => rfl
  | cons c cs ih =>
    obtain ⟨⟨⟨hlow, hhigh⟩, hspecial⟩, hcs⟩ := List.forall_mem_cons.mp h
    have hkept : ¬(c.toNat < 0x20 ∨ 0x7F ≤ c.toNat ∨ c ∈ special) := by
      rw [not_or, not_or]
      exact ⟨by omega, by omega, hspecial⟩
    rw [percentEncode, List.flatMap_cons, if_neg hkept, ← percentEncode, ih hcs]
    rfl

theorem resolve_append (above front back : List String) :
    resolve above (front ++ back) = resolve (resolve above front) back := by
  induction front generalizing above with
  | nil => rfl
  | cons s front ih =>
    rw [List.cons_append, resolve, resolve]
    split
    · exact ih above
    · split
      · exact ih above.tail
      · exact ih (s :: above)

/-- A segment made of the characters of ids is a step to no other place. -/
theorem not_isHere_isAbove {s : String} (h : ∀ c ∈ s.toList, isIdChar c = true) :
    isHere s = false ∧ isAbove s = false := by
  have hlower : ∀ c ∈ (lowerAscii s).toList, isIdChar c = true := by
    intro c hc
    rw [lowerAscii, String.toList_ofList] at hc
    obtain ⟨d, hd, rfl⟩ := List.mem_map.mp hc
    exact isIdChar_toLower (h d hd)
  have hcontains {steps : List String} (hsteps : ∀ step ∈ steps, step.toList.all isIdChar = false) :
      steps.contains (lowerAscii s) = false := by
    rw [List.contains_eq_mem, decide_eq_false_iff_not]
    intro hmem
    have hother := hsteps _ hmem
    rw [List.all_eq_true.mpr hlower] at hother
    cases hother
  exact ⟨hcontains (by decide), hcontains (by decide)⟩

/-- Plain segments are not resolved. -/
theorem resolve_of_isPlain {segments : List String} (h : IsPlain segments) (above : List String) :
    resolve above segments = segments.reverse ++ above := by
  induction segments generalizing above with
  | nil => rfl
  | cons s segments ih =>
    obtain ⟨hhere, habove⟩ :=
      not_isHere_isAbove fun c hc => h.isIdChar List.mem_cons_self hc
    simp [resolve, hhere, habove, ih fun t ht => h t (List.mem_cons_of_mem s ht)]

/-- Plain segments are segments wherever they stand. -/
theorem IsPlain.isSegment {segments : List String} (h : IsPlain segments) :
    ∀ s ∈ segments, IsSegment s :=
  fun _ hs _ hc => notMem_of_isIdChar (by decide) (h.isIdChar hs hc)

namespace Endpoint

section
variable {origin : String} {cs path rest : List Char}

theorem behind_of_path (h : ∀ c ∈ cs, endsPath c = false) :
    behind origin cs = ⟨origin, readPath cs, none, none⟩ := by
  rw [behind, breakAt_eq_self h]
  rfl

theorem behind_of_query {query : List Char} (h : breakAt endsPath cs = (path, '?' :: query)) :
    behind origin cs = ⟨origin, readPath path,
      some (encoded querySpecial (breakAt (· == '#') query).1),
      readFragment (breakAt (· == '#') query).2⟩ := by
  rw [behind, h]
  rfl

theorem behind_of_fragment {fragment : List Char}
    (h : breakAt endsPath cs = (path, '#' :: fragment)) : behind origin cs =
      ⟨origin, readPath path, none, some (encoded fragmentSpecial fragment)⟩ := by
  rw [behind, h]
  rfl

end

variable {segments : List String} (h : IsPlain segments)
include h

/-- A path behind a part of an address is not encoded in it. -/
theorem encoded_append_pathText {special : List Char} (hslash : '/' ∉ special)
    (hspecial : special.any isIdChar = false) (cs : List Char) :
    encoded special (cs ++ (pathText segments).toList) =
      encoded special cs ++ pathText segments := by
  have hpath : percentEncode special (pathText segments).toList = (pathText segments).toList :=
    percentEncode_eq_self fun c hc => ⟨h.toNat_of_mem hc, h.notMem hslash hspecial hc⟩
  rw [← String.toList_inj, String.toList_append, toList_encoded, toList_encoded, percentEncode,
    List.flatMap_append, ← percentEncode, ← percentEncode, hpath]

theorem readPath_append_pathText (cs : List Char) :
    readPath (cs ++ (pathText segments).toList) = readPath cs ++ segments := by
  have hslash : ∀ s ∈ segments, ∀ c ∈ s.toList, isSlash c = false := by
    intro s hs c hc
    have hnot : c ∉ ['/', '\\'] := notMem_of_isIdChar (by decide) (h.isIdChar hs hc)
    simpa [isSlash] using hnot
  have hencoded : (segments.map String.toList).map (encoded pathSpecial) = segments := by
    rw [List.map_map]
    refine (List.map_congr_left fun s hs => ?_).trans (List.map_id _)
    have hself : percentEncode pathSpecial s.toList = s.toList := percentEncode_eq_self fun c hc =>
      have hid := h.isIdChar hs hc
      ⟨by have := toNat_of_isIdChar hid; omega, notMem_of_isIdChar (by decide) hid⟩
    rw [Function.comp, encoded, hself, String.ofList_toList]
    rfl
  rw [readPath, splitOn_append_pathText rfl hslash, List.map_append, hencoded, resolve_append,
    resolve_of_isPlain h, List.reverse_append, List.reverse_reverse]
  rfl

/-- **A path goes behind the last part** of what is behind an origin. -/
theorem behind_append_pathText (origin : String) (cs : List Char) :
    behind origin (cs ++ (pathText segments).toList) = (behind origin cs).below segments := by
  have hends {p : Char → Bool} (hp : ∀ c, p c = true → c ∈ ['?', '#']) {cs : List Char}
      (hcs : ∀ c ∈ cs, p c = false) : ∀ c ∈ cs ++ (pathText segments).toList, p c = false := by
    intro c hc
    obtain hc | hc := List.mem_append.mp hc
    · exact hcs c hc
    · exact eq_false_of_ne_true fun hpc => h.notMem (by decide) (by decide) hc (hp c hpc)
  have hquery (q : List Char) : encoded querySpecial (q ++ (pathText segments).toList) =
      encoded querySpecial q ++ pathText segments :=
    encoded_append_pathText h (by decide) (by decide) q
  have hfragment (f : List Char) : encoded fragmentSpecial (f ++ (pathText segments).toList) =
      encoded fragmentSpecial f ++ pathText segments :=
    encoded_append_pathText h (by decide) (by decide) f
  obtain hpath | ⟨d, rest, hrest, hd⟩ := breakAt_snd_cases endsPath cs
  · -- There is only a path.
    have hcs := of_breakAt_snd_eq_nil hpath
    rw [behind_of_path hcs, behind_of_path (hends (by simp [endsPath]) hcs),
      readPath_append_pathText h]
    rfl
  have hcs : breakAt endsPath cs = ((breakAt endsPath cs).1, d :: rest) := Prod.ext rfl hrest
  have hall := breakAt_append_right (hrest ▸ List.cons_ne_nil d rest) (pathText segments).toList
  rw [hrest, List.cons_append] at hall
  obtain rfl | rfl : d = '?' ∨ d = '#' := by simpa [endsPath] using hd
  · -- There is a query, and there may be a fragment behind it.
    rw [behind_of_query hcs, behind_of_query hall]
    obtain hnone | ⟨d, f, hf, hd⟩ := breakAt_snd_cases (· == '#') rest
    · have hrest := of_breakAt_snd_eq_nil hnone
      rw [breakAt_eq_self hrest, breakAt_eq_self (hends (by simp) hrest), hquery]
      rfl
    · obtain rfl : d = '#' := by simpa using hd
      rw [breakAt_append_right (hf ▸ List.cons_ne_nil '#' f), hf, List.cons_append, readFragment,
        readFragment, hfragment]
      rfl
  · -- There is a fragment.
    rw [behind_of_fragment hcs, behind_of_fragment hall, hfragment]
    rfl

/-! ## Addresses -/

/-- All of a path behind an address is read. -/
theorem significant_append_pathText {cs : List Char} (hcs : significant cs ≠ []) :
    significant (cs ++ (pathText segments).toList) =
      significant cs ++ (pathText segments).toList := by
  have hfront : cs.dropWhile (fun c => decide (c.toNat ≤ 0x20)) ≠ [] := fun hnil =>
    hcs (by rw [significant, hnil]; rfl)
  have hkept : (pathText segments).toList.filter
      (fun c => c != '\t' && c != '\n' && c != '\r') = (pathText segments).toList := by
    rw [List.filter_eq_self]
    intro c hc
    have hnot : c ∉ ['\t', '\n', '\r'] := h.notMem (by decide) (by decide) hc
    simpa [and_assoc] using hnot
  rw [significant, List.dropWhile_append, if_neg (by simpa using hfront), List.filter_append, hkept,
    significant]

omit h in
theorem readScheme?_append {cs rest : List Char} {scheme : String} {own : Nat}
    (hread : readScheme? cs = some (scheme, own, rest)) (more : List Char) :
    readScheme? (cs ++ more) = some (scheme, own, rest ++ more) := by
  obtain ⟨name, hcut, hname⟩ := readScheme?_eq_some_iff.mp hread
  refine readScheme?_eq_some_iff.mpr ⟨name, ?_, hname⟩
  rw [breakAt_append_right (by simp [hcut]), hcut, List.cons_append]

omit h in
/-- A path does not move a cut in front of it. -/
theorem breakAt_append_pathText {p : Char → Bool} (hp : p '/' = true) (cs : List Char) :
    breakAt p (cs ++ (pathText segments).toList) =
      ((breakAt p cs).1, (breakAt p cs).2 ++ (pathText segments).toList) := by
  obtain hnone | ⟨d, rest, hrest, -⟩ := breakAt_snd_cases p cs
  · have hcs := of_breakAt_snd_eq_nil hnone
    rw [breakAt_eq_self hcs]
    cases segments with
    | nil =>
      show breakAt p (cs ++ []) = (cs, [] ++ [])
      rw [List.append_nil, List.append_nil, breakAt_eq_self hcs]
    | cons s segments =>
      rw [toList_pathText_cons, List.cons_append, breakAt_append_cons hcs hp, List.nil_append]
  · exact breakAt_append_right (hrest ▸ List.cons_ne_nil d rest) _

omit h in
theorem namesHost_iff {text : String} : namesHost text = true ↔
    ∃ scheme own rest, readScheme? (significant text.toList) = some (scheme, own, rest) ∧
      rest.dropWhile isSlash ≠ [] := by
  simp [namesHost, Option.any_eq_true]

omit h in
/-- An address names a host. -/
theorem namesHost_of_read? {text : String} {e : Endpoint} (hread : read? text = some e) :
    namesHost text = true := by
  simp only [read?, Option.bind_eq_bind, Option.bind_eq_some_iff] at hread
  obtain ⟨⟨scheme, own, rest⟩, hscheme, host, hhost, -⟩ := hread
  refine namesHost_iff.mpr ⟨scheme, own, rest, hscheme, fun hnil => ?_⟩
  rw [hnil] at hhost
  cases hhost

/-- **An address with a path behind it** is the address, with the path below it. -/
theorem read?_append_pathText {text : String} (hnames : namesHost text = true) :
    read? (text ++ pathText segments) = (read? text).map fun e => e.below segments := by
  obtain ⟨scheme, own, rest, hscheme, hrest⟩ := namesHost_iff.mp hnames
  have hsignificant : significant text.toList ≠ [] := by
    intro hnil
    rw [hnil] at hscheme
    cases hscheme
  have hauthority : (rest ++ (pathText segments).toList).dropWhile isSlash =
      rest.dropWhile isSlash ++ (pathText segments).toList := by
    rw [List.dropWhile_append, if_neg (by simpa using hrest)]
  rw [read?, read?, String.toList_append, significant_append_pathText h hsignificant, hscheme,
    readScheme?_append hscheme]
  simp only [Option.bind_eq_bind, Option.bind_some, hauthority,
    breakAt_append_pathText (p := endsHost) rfl, Option.pure_def, behind_append_pathText h]
  generalize readHost? own _ = host?
  cases host? <;> rfl

end Endpoint

end Http

/-- **A path below the address of a client** is below its endpoint. -/
theorem Client.place?_of_isPlain (c : Client) {segments : List String} (h : IsPlain segments) :
    c.place? segments = c.endpoint?.map fun e => e.below segments := by
  rw [place?]
  split
  next hnames => exact Endpoint.read?_append_pathText h hnames
  next hnames =>
    cases hread : c.endpoint? with
    | none => rfl
    | some e => exact absurd (Endpoint.namesHost_of_read? hread) hnames

/-! ## Paths of the calls -/

theorem isPlain_notes : IsPlain ["notes"] := by decide

theorem isPlain_newNote : IsPlain ["create-note"] := by decide

theorem isPlain_appInfo : IsPlain ["app-info"] := by decide

/-- The path to a note, and what is below it. -/
theorem isPlain_note (id : NoteId) {rest : List String} (h : IsPlain rest) :
    IsPlain ("notes" :: id.text :: rest) :=
  List.forall_mem_cons.mpr ⟨by decide, List.forall_mem_cons.mpr ⟨id.valid.2, h⟩⟩

end NoteTools
