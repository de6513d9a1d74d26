import NoteTools.Proofs.TomlText
import NoteTools.Toml.Document

/-!
# A settings file can be read back

A file is written as sections: each has a header and pairs. The statements of the file are read back
one by one, and carried out in order they put the sections behind each other again.

Main definitions:

* `PrintableSections`: sections with different names, and different keys in each;
* `sectionTable`: the entry that a section makes.

Results:

* `readStatements_linesChars`: statements are read back;
* `add_table`, `add_pair`: what a header and a pair do to a file read so far;
* `parse_fileText`: a file of sections is read back.
-/

namespace NoteTools.Toml

/-! ## Statements -/

/-- A statement whose value has a written form. -/
def Statement.Printable : Statement → Prop
  | .table _ _ => True
  | .item _ _ => True
  | .pair _ _ v => Toml.Printable v

theorem length_lt_pathChars (path : List String) (key : String) :
    path.length < (pathChars path key).length := by
  induction path with
  | nil =>
    obtain ⟨c, cs, hchars, -⟩ := pathChars_eq_cons [] key
    rw [hchars]
    exact Nat.succ_pos _
  | cons part path ih =>
    have hlength : (pathChars (part :: path) key).length =
        (keyChars part).length + 1 + (pathChars path key).length := by
      simp [pathChars]
      omega
    rw [hlength, List.length_cons]
    omega

/-- A statement is read back, and its line end is left. -/
theorem readStatement_chars {st : Statement} (h : st.Printable) (rest : List Char) :
    readStatement (statementChars st ++ '\n' :: rest) = some (st, '\n' :: rest) := by
  cases st with
  | table path key =>
    obtain ⟨c, cs, hchars, hc⟩ := pathChars_eq_cons path key
    have hlength := length_lt_pathChars path key
    have hpath : readPath (pathChars path key ++ ']' :: '\n' :: rest).length
        (pathChars path key ++ ']' :: '\n' :: rest) = some ((path, key), ']' :: '\n' :: rest) :=
      readPath_pathChars path key (by rw [List.length_append]; omega) (by decide) rfl (by decide)
    have htext : statementChars (.table path key) ++ '\n' :: rest =
        '[' :: (pathChars path key ++ ']' :: '\n' :: rest) := by
      simp [statementChars]
    rw [htext, readStatement]
    · rw [hpath]
      rfl
    · rw [hchars]
      rintro rest' ⟨⟩
      exact absurd rfl (hc.ne (d := '[') (by decide))
  | item path key =>
    have hlength := length_lt_pathChars path key
    have hpath : readPath (pathChars path key ++ ']' :: ']' :: '\n' :: rest).length
        (pathChars path key ++ ']' :: ']' :: '\n' :: rest) =
          some ((path, key), ']' :: ']' :: '\n' :: rest) :=
      readPath_pathChars path key (by rw [List.length_append]; omega) (by decide) rfl (by decide)
    have htext : statementChars (.item path key) ++ '\n' :: rest =
        '[' :: '[' :: (pathChars path key ++ ']' :: ']' :: '\n' :: rest) := by
      simp [statementChars]
    rw [htext, readStatement, hpath]
    rfl
  | pair path key v =>
    obtain ⟨c, cs, hchars, hc⟩ := pathChars_eq_cons path key
    have hlength := length_lt_pathChars path key
    have hpath : readPath
        (pathChars path key ++ ' ' :: '=' :: ' ' :: (valueChars v ++ '\n' :: rest)).length
        (pathChars path key ++ ' ' :: '=' :: ' ' :: (valueChars v ++ '\n' :: rest)) =
          some ((path, key), '=' :: ' ' :: (valueChars v ++ '\n' :: rest)) :=
      readPath_pathChars path key (by rw [List.length_append]; omega) (by decide) rfl (by decide)
    have hblank :
        skipBlanks (' ' :: (valueChars v ++ '\n' :: rest)) = valueChars v ++ '\n' :: rest :=
      skipBlanks_valueChars h _
    have htext : statementChars (.pair path key v) ++ '\n' :: rest =
        pathChars path key ++ ' ' :: '=' :: ' ' :: (valueChars v ++ '\n' :: rest) := by
      simp [statementChars]
    have hvalue : readValue (2 * (' ' :: (valueChars v ++ '\n' :: rest)).length + 1)
        (valueChars v ++ '\n' :: rest) = some (v, '\n' :: rest) :=
      readValue_chars v h _ (by rw [List.length_cons, List.length_append]; omega) (by decide) rest
    rw [htext, readStatement]
    · rw [hpath]
      simp only [Option.bind_eq_bind, Option.bind_some, hblank, hvalue]
      rfl
    all_goals
      rw [hchars]
      exact fun _ heq => absurd (List.cons.inj heq).1 (hc.ne (by decide))

theorem statementChars_eq_cons (st : Statement) :
    ∃ c cs, statementChars st = c :: cs ∧ ¬StartsGap c := by
  cases st with
  | table path key => exact ⟨'[', _, rfl, by decide⟩
  | item path key => exact ⟨'[', _, rfl, by decide⟩
  | pair path key v =>
    obtain ⟨c, cs, hchars, hc⟩ := pathChars_eq_cons path key
    exact ⟨c, _, by rw [statementChars, hchars, List.cons_append], not_startsGap hc⟩

theorem readStatements_line (count : Nat) (cs : List Char) :
    readStatements (count + 1) ('\n' :: cs) = readStatements (count + 1) cs := by
  rw [readStatements, readStatements]
  rfl

/-- **Statements are read back.** -/
theorem readStatements_linesChars {sts : List Statement} (h : ∀ st ∈ sts, st.Printable)
    {count : Nat} (hcount : sts.length < count) :
    readStatements count (linesChars sts) = some sts := by
  induction sts generalizing count with
  | nil =>
    obtain ⟨count, rfl⟩ : ∃ k, count = k + 1 := ⟨count - 1, by omega⟩
    rfl
  | cons st sts ih =>
    rw [List.length_cons] at hcount
    obtain ⟨count, rfl⟩ : ∃ k, count = k + 2 := ⟨count - 2, by omega⟩
    obtain ⟨hst, hsts⟩ := List.forall_mem_cons.mp h
    obtain ⟨c, cs, hchars, hgap⟩ := statementChars_eq_cons st
    have hread := readStatement_chars hst (linesChars sts)
    have hmore : readStatements (count + 1) (linesChars sts) = some sts := ih hsts (by omega)
    rw [← readStatements_line] at hmore
    have htext : linesChars (st :: sts) = statementChars st ++ '\n' :: linesChars sts := by
      simp [linesChars]
    rw [htext]
    rw [hchars, List.cons_append] at hread ⊢
    rw [readStatements, skipGaps_cons hgap]
    simp only [Option.bind_eq_bind, Option.bind_some, hread, hmore]
    rfl

/-! ## Files -/

/-- Sections whose names differ, each with values that have a written form under different keys. -/
structure PrintableSections (sections : List (String × Entries)) : Prop where
  names : (sections.map Prod.fst).Nodup
  entries : ∀ s ∈ sections, PrintableEntries s.2 ∧ s.2.keys.Nodup

/-- The table of a section. -/
def sectionTable (s : String × Entries) : String × Value :=
  (s.1, .table .header s.2)

section
variable {front : Entries} {name key : String} {entries : Entries} {v : Value}

/-- A header puts an empty table behind what is there. -/
theorem add_table (hname : name ∉ front.keys) (current : List String) :
    Document.add ⟨front, current⟩ (.table [] name) =
      some ⟨front ++ [(name, .table .header [])], [name]⟩ := by
  rw [Document.add, openTable, atPath, alter_of_notMem hname]
  rfl

/-- The value of the last key is changed. -/
theorem alter_last (hname : name ∉ front.keys) (f : Option Value → Option Value) :
    alter name f (front ++ [(name, v)]) = (f (some v)).map fun v => front ++ [(name, v)] := by
  induction front with
  | nil =>
    rw [List.nil_append, alter, if_pos rfl]
    rfl
  | cons entry front ih =>
    rw [Entries.keys, List.map_cons, List.mem_cons, not_or] at hname
    rw [List.cons_append, alter, if_neg (Ne.symm hname.1), ih hname.2]
    cases f (some v) <;> rfl

/-- A pair is put into the table opened last, behind what is there. -/
theorem add_pair (hname : name ∉ front.keys) (hkey : key ∉ entries.keys) :
    Document.add ⟨front ++ [(name, .table .header entries)], [name]⟩ (.pair [] key v) =
      some ⟨front ++ [(name, .table .header (entries ++ [(key, v)]))], [name]⟩ := by
  rw [Document.add, atPath, alter_last hname]
  dsimp only
  rw [intoTable, if_neg (by decide), atPath, putPair_of_notMem hkey v (by decide)]
  rfl

theorem foldlM_pairs (entries : Entries) (hname : name ∉ front.keys) {more : Entries}
    (hkeys : more.keys.Nodup) (hnew : ∀ k ∈ more.keys, k ∉ entries.keys) :
    (more.map fun (key, v) => Statement.pair [] key v).foldlM Document.add
        ⟨front ++ [(name, .table .header entries)], [name]⟩ =
      some ⟨front ++ [(name, .table .header (entries ++ more))], [name]⟩ := by
  induction more generalizing entries with
  | nil => rw [List.append_nil]; rfl
  | cons entry more ih =>
    obtain ⟨key, v⟩ := entry
    obtain ⟨hkey, hkeys⟩ := List.nodup_cons.mp hkeys
    obtain ⟨hfirst, hnew⟩ := List.forall_mem_cons.mp hnew
    rw [List.map_cons, List.foldlM_cons]
    dsimp only
    rw [add_pair hname hfirst]
    refine (ih _ hkeys (notMem_keys_append hkey hnew)).trans ?_
    rw [List.append_assoc]
    rfl

end

/-- The statements of sections put their tables behind what is there. -/
theorem foldlM_sections {sections : List (String × Entries)} (h : PrintableSections sections)
    (front : Entries) (hnew : ∀ k ∈ sections.map Prod.fst, k ∉ front.keys) (current : List String) :
    ((sections.flatMap fun s => sectionStatements s.1 s.2).foldlM Document.add
        ⟨front, current⟩).map Document.entries = some (front ++ sections.map sectionTable) := by
  induction sections generalizing front current with
  | nil => rw [List.map_nil, List.append_nil]; rfl
  | cons s sections ih =>
    obtain ⟨hname, hnames⟩ := List.nodup_cons.mp h.names
    obtain ⟨hfirst, hnew⟩ := List.forall_mem_cons.mp hnew
    obtain ⟨⟨-, hkeys⟩, hentries⟩ := List.forall_mem_cons.mp h.entries
    have hpairs := foldlM_pairs [] hfirst hkeys (by simp)
    rw [List.flatMap_cons, List.foldlM_append, sectionStatements, List.foldlM_cons,
      add_table hfirst]
    dsimp only [Option.bind_eq_bind, Option.bind_some]
    rw [hpairs]
    -- The table that is open now does not matter: the next statement is a header again.
    refine (ih ⟨hnames, hentries⟩ _ (notMem_keys_append hname hnew) _).trans ?_
    rw [List.map_cons, List.append_assoc]
    rfl

theorem length_le_linesChars (sts : List Statement) : sts.length ≤ (linesChars sts).length := by
  induction sts with
  | nil => exact Nat.le_refl 0
  | cons st sts ih =>
    have htext : linesChars (st :: sts) = statementChars st ++ '\n' :: linesChars sts := by
      simp [linesChars]
    rw [htext, List.length_append, List.length_cons, List.length_cons]
    omega

/-- A file of sections starts with no mark. -/
theorem dropMark_sections (sections : List (String × Entries)) :
    dropMark (linesChars (sections.flatMap fun s => sectionStatements s.1 s.2)) =
      linesChars (sections.flatMap fun s => sectionStatements s.1 s.2) := by
  cases sections with
  | nil => rfl
  | cons s sections => rfl

theorem printable_sections {sections : List (String × Entries)} (h : PrintableSections sections) :
    ∀ st ∈ sections.flatMap fun s => sectionStatements s.1 s.2, st.Printable := by
  intro st hst
  obtain ⟨s, hs, hst⟩ := List.mem_flatMap.mp hst
  obtain rfl | hst := List.mem_cons.mp hst
  · trivial
  · obtain ⟨⟨key, v⟩, hentry, rfl⟩ := List.mem_map.mp hst
    exact (h.entries s hs).1.of_mem hentry

/-- **A file of sections is read back.** -/
theorem parse_fileText {sections : List (String × Entries)} (h : PrintableSections sections) :
    parse (fileText sections) = some (sections.map sectionTable) := by
  have hlength := length_le_linesChars (sections.flatMap fun s => sectionStatements s.1 s.2)
  have hread := readStatements_linesChars (printable_sections h) (Nat.lt_succ_of_le hlength)
  have hfold := foldlM_sections h [] (by simp) []
  rw [parse, fileText, String.toList_ofList, dropMark_sections]
  simp only [Option.bind_eq_bind, hread, Option.bind_some]
  rw [List.nil_append] at hfold
  rw [← hfold, Option.map_eq_bind]
  rfl

end NoteTools.Toml
