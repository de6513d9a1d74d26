import NoteTools.Proofs.JsonText
import NoteTools.Toml.Printer

/-!
# The values of a settings file can be read back

A key and a value in a settings file are read back as they were written, whatever their texts hold.
What follows must not go on with them: a bare key ends before a character that stands in no key, and
a value before a comma, a closing bracket or brace, or a line end.

Main definitions:

* `Printable`: a value that has a written form, without equal keys in a table;
* `StartsGap`, `StartsKey`, `EndsValue`: the characters that start and end the parts of a file.

Results:

* `readBasic_escape`, `readInt?_toString`: texts and whole numbers are read back;
* `readPath_pathChars`: a dotted key is read back;
* `readValue_chars`: a value is read back, and what follows it is left.
-/

namespace NoteTools.Toml

/-! ## Texts -/

theorem scalar?_hexDigits (c : Char) (h : isControl c = true) :
    scalar? ['0', '0', Json.hexDigit (c.toNat / 16), Json.hexDigit (c.toNat % 16)] = some c := by
  have hall : ∀ n < 0x80,
      scalar? ['0', '0', Json.hexDigit (n / 16), Json.hexDigit (n % 16)] = some (Char.ofNat n) := by
    decide
  have hsmall : c.toNat < 0x80 := by
    simp only [isControl, Bool.or_eq_true, Bool.and_eq_true, decide_eq_true_eq, beq_iff_eq] at h
    omega
  rw [hall c.toNat hsmall, Char.ofNat_toNat]

theorem readBasic_escapeChar (c : Char) (rest : List Char) :
    readBasic (escapeChar c ++ rest) = consRead (some c) (readBasic rest) := by
  unfold escapeChar
  split
  · next h => obtain rfl | rfl := h <;> rfl
  split
  · next h =>
    rw [← scalar?_hexDigits c h]
    rfl
  · next hplain hcontrol =>
    rw [not_or] at hplain
    rw [List.singleton_append, readBasic, if_neg hcontrol]
    · exact hplain.1
    all_goals intros
    all_goals exact hplain.2 ‹_›

/-- An escaped text is read back. -/
theorem readBasic_escape (cs rest : List Char) :
    readBasic (cs.flatMap escapeChar ++ '"' :: rest) = some (cs, rest) := by
  induction cs with
  | nil => rfl
  | cons c cs ih =>
    rw [List.flatMap_cons, List.append_assoc, readBasic_escapeChar, ih]
    rfl

theorem quoted_append (s : String) (rest : List Char) :
    quoted s ++ rest = '"' :: (s.toList.flatMap escapeChar ++ '"' :: rest) := by
  simp [quoted]

/-! ## Gaps -/

/-- A character that starts a gap, or may do so. -/
def StartsGap (c : Char) : Prop :=
  c ∈ ['\n', '\r', ' ', '\t', '#']

instance (c : Char) : Decidable (StartsGap c) :=
  inferInstanceAs (Decidable (c ∈ ['\n', '\r', ' ', '\t', '#']))

theorem skipGaps_cons {c : Char} (h : ¬StartsGap c) (rest : List Char) :
    skipGaps false (c :: rest) = some (c :: rest) := by
  simp only [StartsGap, List.mem_cons, List.not_mem_nil, or_false, not_or] at h
  obtain ⟨hline, hreturn, hspace, htab, hhash⟩ := h
  have hblank : isBlank c = false := by simp [isBlank, hspace, htab]
  rw [skipGaps]
  · simp [hblank, hhash]
  · exact hline
  · rintro _ rfl
    exact absurd rfl hreturn

theorem skipBlanks_cons {c : Char} (h : isBlank c = false) (rest : List Char) :
    skipBlanks (c :: rest) = c :: rest :=
  List.dropWhile_cons_of_neg (by simp [h])

/-! ## Keys -/

/-- A character that starts a part of a key. -/
def StartsKey (c : Char) : Prop :=
  isKeyChar c = true ∨ c = '"'

instance (c : Char) : Decidable (StartsKey c) :=
  inferInstanceAs (Decidable (isKeyChar c = true ∨ c = '"'))

theorem StartsKey.ne {c d : Char} (h : StartsKey c) (hd : ¬StartsKey d) : c ≠ d := by
  rintro rfl
  exact hd h

theorem keyChars_eq_cons (key : String) : ∃ c cs, keyChars key = c :: cs ∧ StartsKey c := by
  unfold keyChars
  split
  · next h =>
    obtain ⟨c, cs, hkey⟩ := List.exists_cons_of_ne_nil h.1
    refine ⟨c, cs, hkey, .inl (List.all_eq_true.mp h.2 c ?_)⟩
    rw [hkey]
    exact List.mem_cons_self
  · exact ⟨'"', _, rfl, .inr rfl⟩

theorem not_startsGap {c : Char} (h : StartsKey c) : ¬StartsGap c := by
  intro hgap
  simp only [StartsGap, List.mem_cons, List.not_mem_nil, or_false] at hgap
  obtain rfl | rfl | rfl | rfl | rfl := hgap <;> exact absurd h (by decide)

theorem not_isBlank {c : Char} (h : ¬StartsGap c) : isBlank c = false := by
  simp only [StartsGap, List.mem_cons, List.not_mem_nil, or_false, not_or] at h
  simp [isBlank, h.2.2.1, h.2.2.2.1]

/-- A part of a key is read back. -/
theorem readKey_keyChars (key : String) {c : Char} (hc : isKeyChar c = false) (rest : List Char) :
    readKey (keyChars key ++ c :: rest) = some (key, c :: rest) := by
  unfold keyChars
  split
  · next h =>
    obtain ⟨d, ds, hkey⟩ := List.exists_cons_of_ne_nil h.1
    have hall : ∀ d ∈ key.toList, isKeyChar d = true := List.all_eq_true.mp h.2
    have hd : isKeyChar d = true := hall d (hkey ▸ List.mem_cons_self)
    have hbreak : Text.breakAt (fun c => !isKeyChar c) (key.toList ++ c :: rest) =
        (key.toList, c :: rest) :=
      Text.breakAt_append_cons (fun d hd => by rw [hall d hd]; rfl) (by rw [hc]; rfl) rest
    unfold readKey
    split
    · next heq =>
      rw [hkey] at heq
      cases heq
      exact absurd hd (by decide)
    · next heq =>
      rw [hkey] at heq
      cases heq
      exact absurd hd (by decide)
    · have hfull : key.toList.isEmpty = false := by rw [hkey]; rfl
      simp only [hbreak, hfull, Bool.false_eq_true, if_false, String.ofList_toList]
  · rw [quoted_append, readKey, readBasic_escape, asText, Option.map_some]
    dsimp only
    rw [String.ofList_toList]

theorem skipBlanks_keyChars (key : String) (rest : List Char) :
    skipBlanks (keyChars key ++ rest) = keyChars key ++ rest := by
  obtain ⟨c, cs, hkey, hc⟩ := keyChars_eq_cons key
  rw [hkey]
  exact skipBlanks_cons (not_isBlank (not_startsGap hc)) _

theorem pathChars_eq_cons (path : List String) (key : String) :
    ∃ c cs, pathChars path key = c :: cs ∧ StartsKey c := by
  cases path with
  | nil => exact keyChars_eq_cons key
  | cons part path =>
    obtain ⟨c, cs, hpart, hc⟩ := keyChars_eq_cons part
    exact ⟨c, cs ++ '.' :: pathChars path key, by simp [pathChars, hpart], hc⟩

/-- A dotted key is read back, and the blanks behind it are passed over. -/
theorem readPath_pathChars (path : List String) (key : String) {parts : Nat}
    (hparts : path.length < parts) {c : Char} (hc : isKeyChar c = false) {rest next : List Char}
    {d : Char} (hnext : skipBlanks (c :: rest) = d :: next) (hd : d ≠ '.') :
    readPath parts (pathChars path key ++ c :: rest) = some ((path, key), d :: next) := by
  obtain ⟨parts, rfl⟩ : ∃ k, parts = k + 1 := ⟨parts - 1, by omega⟩
  induction path generalizing parts with
  | nil =>
    rw [pathChars, List.flatMap_nil, List.nil_append, readPath, skipBlanks_keyChars,
      readKey_keyChars key hc]
    simp only [Option.bind_eq_bind, Option.bind_some, hnext]
    split
    · next heq =>
      cases heq
      exact absurd rfl hd
    · rfl
  | cons part path ih =>
    rw [List.length_cons] at hparts
    obtain ⟨parts, rfl⟩ : ∃ k, parts = k + 1 := ⟨parts - 1, by omega⟩
    have hdot : pathChars (part :: path) key ++ c :: rest =
        keyChars part ++ '.' :: (pathChars path key ++ c :: rest) := by
      simp [pathChars]
    rw [hdot, readPath, skipBlanks_keyChars, readKey_keyChars part (by decide)]
    simp only [Option.bind_eq_bind, Option.bind_some, skipBlanks_cons (c := '.') (by decide),
      ih parts (by omega)]
    rfl

/-! ## Whole numbers -/

/-- Digits without underscores among them are taken as they are. -/
theorem ungroup?_eq {ds : List Char} (hne : ds ≠ []) (hds : ∀ d ∈ ds, d.isDigit = true) :
    ungroup? Char.isDigit ds = some ds := by
  induction ds with
  | nil => exact absurd rfl hne
  | cons d ds ih =>
    obtain ⟨hd, hds⟩ := List.forall_mem_cons.mp hds
    cases ds with
    | nil => rw [ungroup?, if_pos hd]
    | cons e ds =>
      rw [ungroup?, if_pos hd, ih (List.cons_ne_nil e ds) hds]
      · rfl
      · rintro ⟨⟩
      · rintro rest ⟨⟩
        exact absurd (hds '_' List.mem_cons_self) (by decide)

theorem isDigit_of_mem_toDigits {n : Nat} : ∀ d ∈ Nat.toDigits 10 n, d.isDigit = true :=
  fun _ hd => Nat.isDigit_of_mem_toDigits (by decide) (by decide) hd

theorem ungroupDecimal?_toDigits (n : Nat) :
    ungroupDecimal? (Nat.toDigits 10 n) = some (Nat.toDigits 10 n) := by
  rw [ungroupDecimal?, ungroup?_eq Nat.toDigits_ne_nil isDigit_of_mem_toDigits, Option.filter_some,
    if_pos]
  obtain ⟨d, ds, hdigits, -⟩ := Json.toDigits_eq_cons n
  rw [hdigits, decide_eq_true_eq]
  by_cases hzero : d = '0'
  · rw [hzero] at hdigits
    rw [Numeric.toDigits_eq_zero_cons hdigits]
    exact .inl rfl
  · exact .inr (fun heq => hzero (Option.some.inj heq))

theorem takeSign_of_isDigit {d : Char} (h : d.isDigit = true) (ds : List Char) :
    Numeric.Literal.takeSign (d :: ds) = (false, d :: ds) := by
  rw [Numeric.Literal.takeSign]
  · rintro rest ⟨⟩
    exact absurd h (by decide)
  · rintro rest ⟨⟩
    exact absurd h (by decide)

/-- A whole number is read back. -/
theorem readInt?_toString (i : Int) : readInt? (toString i).toList = some (.int i) := by
  cases i with
  | ofNat n =>
    rw [Int.ofNat_eq_natCast, Json.toList_toString_ofNat]
    obtain ⟨d, ds, hdigits, hd⟩ := Json.toDigits_eq_cons n
    have hread := ungroupDecimal?_toDigits n
    have hvalue := Numeric.digitsValue_toDigits n
    unfold readInt?
    split
    · next rest heq => cases Numeric.toDigits_eq_zero_cons heq
    · next rest heq => cases Numeric.toDigits_eq_zero_cons heq
    · next rest heq => cases Numeric.toDigits_eq_zero_cons heq
    · rw [hdigits] at hread hvalue ⊢
      rw [takeSign_of_isDigit hd]
      simp [hread, hvalue]
  | negSucc n =>
    rw [Json.toList_toString_negSucc]
    have hread := ungroupDecimal?_toDigits (n + 1)
    have hvalue := Numeric.digitsValue_toDigits (n + 1)
    unfold readInt?
    simp [Numeric.Literal.takeSign, hread, hvalue, Int.negSucc_eq]

/-! ## Bare words -/

/-- A character that may follow a value. -/
def EndsValue (c : Char) : Prop :=
  c ∈ [',', ']', '}', '\n']

instance (c : Char) : Decidable (EndsValue c) :=
  inferInstanceAs (Decidable (c ∈ [',', ']', '}', '\n']))

theorem EndsValue.ne {c d : Char} (h : EndsValue c) (hd : ¬EndsValue d) : c ≠ d := by
  rintro rfl
  exact hd h

theorem EndsValue.not_isWordChar {c : Char} (h : EndsValue c) : isWordChar c = false := by
  simp only [EndsValue, List.mem_cons, List.not_mem_nil, or_false] at h
  obtain rfl | rfl | rfl | rfl := h <;> rfl

/-- A bare word is read up to its end. -/
theorem readWord_append {word : List Char} (hword : ∀ d ∈ word, isWordChar d = true) {c : Char}
    (hc : EndsValue c) (rest : List Char) :
    readWord (word ++ c :: rest) = (readWord? word).map fun v => (v, c :: rest) := by
  have hbreak : Text.breakAt (fun c => !isWordChar c) (word ++ c :: rest) = (word, c :: rest) :=
    Text.breakAt_append_cons (fun d hd => by rw [hword d hd]; rfl) (by rw [hc.not_isWordChar]; rfl)
      rest
  have hspace : c ≠ ' ' := hc.ne (by decide)
  unfold readWord
  rw [hbreak]
  dsimp only
  split
  · next heq =>
    cases heq
    exact absurd rfl hspace
  · rfl

/-- What starts with a character of a bare word is read as a bare word. -/
theorem readValue_word {d : Char} (hd : isWordChar d = true) (steps : Nat) (cs : List Char) :
    readValue (steps + 1) (d :: cs) = readWord (d :: cs) := by
  rw [readValue]
  all_goals
    rintro rest ⟨⟩
    exact absurd hd (by decide)

theorem isWordChar_of_isDigit {d : Char} (h : d.isDigit = true) : isWordChar d = true := by
  simp [isWordChar, isKeyChar, Char.isAlphanum, h]

/-! ## Values -/

mutual

/-- A value with a written form: it holds no number with a point and no moment, its arrays and
tables are those of brackets and braces, and no key occurs twice in a table. -/
def Printable : Value → Prop
  | .text _ => True
  | .int _ => True
  | .bool _ => True
  | .array growing items => growing = false ∧ PrintableItems items
  | .table kind entries =>
    kind = .braced ∧ PrintableEntries entries ∧ (entries.map Prod.fst).Nodup
  | .float _ => False
  | .moment => False

/-- Items with a written form. -/
def PrintableItems : List Value → Prop
  | [] => True
  | v :: vs => Printable v ∧ PrintableItems vs

/-- Entries whose values have a written form. -/
def PrintableEntries : List (String × Value) → Prop
  | [] => True
  | (_, v) :: entries => Printable v ∧ PrintableEntries entries

end

theorem PrintableEntries.of_mem {entries : List (String × Value)} (h : PrintableEntries entries)
    {entry : String × Value} (hentry : entry ∈ entries) : Printable entry.2 := by
  induction entries with
  | nil => cases hentry
  | cons first entries ih =>
    obtain rfl | hentry := List.mem_cons.mp hentry
    · exact h.1
    · exact ih h.2 hentry

theorem toString_int_eq_cons (i : Int) :
    ∃ d ds, (toString i).toList = d :: ds ∧ ∀ e ∈ d :: ds, isWordChar e = true := by
  have hdigits (n : Nat) : ∀ e ∈ Nat.toDigits 10 n, isWordChar e = true := fun e he =>
    isWordChar_of_isDigit (isDigit_of_mem_toDigits e he)
  cases i with
  | ofNat n =>
    rw [Int.ofNat_eq_natCast, Json.toList_toString_ofNat]
    obtain ⟨d, ds, heq, -⟩ := Json.toDigits_eq_cons n
    exact ⟨d, ds, heq, heq ▸ hdigits n⟩
  | negSucc n =>
    rw [Json.toList_toString_negSucc]
    exact ⟨'-', _, rfl, List.forall_mem_cons.mpr ⟨by decide, hdigits (n + 1)⟩⟩

/-- A bare value is read back. -/
theorem readValue_bare {v : Value} {d : Char} {ds : List Char}
    (hds : ∀ e ∈ d :: ds, isWordChar e = true) (hv : readWord? (d :: ds) = some v) (steps : Nat)
    {c : Char} (hc : EndsValue c) (rest : List Char) :
    readValue (steps + 1) (d :: ds ++ c :: rest) = some (v, c :: rest) := by
  rw [List.cons_append, readValue_word (hds d List.mem_cons_self), ← List.cons_append,
    readWord_append hds hc, hv]
  rfl

theorem readWord?_toString (i : Int) : readWord? (toString i).toList = some (.int i) := by
  have hread := readInt?_toString i
  unfold readWord?
  split
  · next heq =>
    rw [heq, show readInt? ['t', 'r', 'u', 'e'] = none from rfl] at hread
    cases hread
  split
  · next heq =>
    rw [heq, show readInt? ['f', 'a', 'l', 's', 'e'] = none from rfl] at hread
    cases hread
  · rw [hread]
    rfl

theorem escapeChar_ne_quote_cons (c : Char) (cs rest : List Char) :
    escapeChar c ++ cs ≠ '"' :: rest := by
  unfold escapeChar
  split
  · rintro ⟨⟩
  split
  · rintro ⟨⟩
  · next hplain _ =>
    rintro ⟨⟩
    exact hplain (.inl rfl)

/-- Behind the first quote of a text there are no two more. -/
theorem not_starts_quotes (cs : List Char) {c : Char} (hc : c ≠ '"') {rest rest' : List Char} :
    cs.flatMap escapeChar ++ '"' :: c :: rest ≠ '"' :: '"' :: rest' := by
  cases cs with
  | nil =>
    rintro ⟨⟩
    exact hc rfl
  | cons d cs =>
    rw [List.flatMap_cons, List.append_assoc]
    exact escapeChar_ne_quote_cons d _ _

/-- A text is read back as a value. -/
theorem readValue_quoted (s : String) (steps : Nat) {c : Char} (hc : EndsValue c)
    (rest : List Char) :
    readValue (steps + 1) (quoted s ++ c :: rest) = some (.text s, c :: rest) := by
  have hread : readValue (steps + 1) (quoted s ++ c :: rest) =
      textValue (readBasic (s.toList.flatMap escapeChar ++ '"' :: c :: rest)) := by
    rw [quoted_append, readValue]
    exact fun _ heq => not_starts_quotes s.toList (hc.ne (by decide)) heq
  rw [hread, readBasic_escape, textValue, asText, Option.map_some, Option.map_some]
  dsimp only
  rw [String.ofList_toList]

/-- A value starts with no gap, and with no closing bracket. -/
theorem valueChars_eq_cons {v : Value} (h : Printable v) :
    ∃ c cs, valueChars v = c :: cs ∧ ¬StartsGap c ∧ c ≠ ']' := by
  have hword {d : Char} (hd : isWordChar d = true) : ¬StartsGap d ∧ d ≠ ']' := by
    constructor
    · intro hgap
      simp only [StartsGap, List.mem_cons, List.not_mem_nil, or_false] at hgap
      obtain rfl | rfl | rfl | rfl | rfl := hgap <;> exact absurd hd (by decide)
    · rintro rfl
      exact absurd hd (by decide)
  match v with
  | .text s => exact ⟨'"', _, rfl, by decide, by decide⟩
  | .int i =>
    obtain ⟨d, ds, heq, hds⟩ := toString_int_eq_cons i
    exact ⟨d, ds, heq, hword (hds d List.mem_cons_self)⟩
  | .bool true => exact ⟨'t', _, rfl, by decide, by decide⟩
  | .bool false => exact ⟨'f', _, rfl, by decide, by decide⟩
  | .array _ items => exact ⟨'[', _, rfl, by decide, by decide⟩
  | .table _ entries => exact ⟨'{', _, rfl, by decide, by decide⟩
  | .float _ => exact h.elim
  | .moment => exact h.elim

/-! ### Arrays -/

section
variable {steps : Nat} {c : Char} {cs rest rest' : List Char} {v : Value}

theorem readItems_space : readItems (steps + 1) (' ' :: cs) = readItems (steps + 1) cs := by
  rw [readItems, readItems]
  rfl

theorem readItems_start (hgap : ¬StartsGap c) (hc : c ≠ ']') :
    readItems (steps + 1) (c :: cs) = (do
      let (v, rest) ← readValue steps (c :: cs)
      match ← skipGaps false rest with
      | ',' :: rest =>
        let (vs, rest) ← readItems steps rest
        return (v :: vs, rest)
      | ']' :: rest => return ([v], rest)
      | _ => none) := by
  rw [readItems, skipGaps_cons hgap]
  dsimp only [Option.bind_eq_bind, Option.bind_some]
  split
  · next heq =>
    cases heq
    exact absurd rfl hc
  · rfl

/-- An item before a closing bracket is the last one. -/
theorem readItems_last (hgap : ¬StartsGap c) (hc : c ≠ ']')
    (hv : readValue steps (c :: cs) = some (v, ']' :: rest)) :
    readItems (steps + 1) (c :: cs) = some ([v], rest) := by
  rw [readItems_start hgap hc, hv]
  simp only [Option.bind_eq_bind, Option.bind_some, skipGaps_cons (c := ']') (by decide)]
  rfl

/-- Behind an item and a comma the array goes on. -/
theorem readItems_next {vs : List Value} (hgap : ¬StartsGap c) (hc : c ≠ ']')
    (hv : readValue steps (c :: cs) = some (v, ',' :: rest))
    (hvs : readItems steps rest = some (vs, rest')) :
    readItems (steps + 1) (c :: cs) = some (v :: vs, rest') := by
  rw [readItems_start hgap hc, hv]
  simp only [Option.bind_eq_bind, Option.bind_some, skipGaps_cons (c := ',') (by decide), hvs]
  rfl

end

/-! ### Tables between braces -/

/-- The keys of entries. -/
abbrev Entries.keys (entries : Entries) : List String :=
  entries.map Prod.fst

theorem alter_of_notMem {key : String} {entries : Entries} (h : key ∉ entries.keys)
    (f : Option Value → Option Value) :
    alter key f entries = (f none).map fun v => entries ++ [(key, v)] := by
  induction entries with
  | nil => rfl
  | cons entry entries ih =>
    rw [Entries.keys, List.map_cons, List.mem_cons, not_or] at h
    rw [alter, if_neg (Ne.symm h.1), ih h.2]
    cases f none <;> rfl

/-- A pair is put behind the others, into a table that was not made by dotted keys. -/
theorem putPair_of_notMem {key : String} {entries : Entries} (h : key ∉ entries.keys) (v : Value)
    {kind : TableKind} (hkind : kind ≠ .dotted) :
    putPair [] key v kind entries = some (entries ++ [(key, v)]) := by
  rw [putPair, atPath, if_neg (by simp [hkind]), alter_of_notMem h]
  rfl

section
variable {steps : Nat} {cs rest : List Char} {key : String} {v : Value} {entries : Entries}

theorem readEntries_space :
    readEntries (steps + 1) entries (' ' :: cs) = readEntries (steps + 1) entries cs := by
  rw [readEntries, readEntries]
  rfl

/-- A pair of a table between braces is read and put. -/
theorem readEntries_start (hkey : key ∉ entries.keys) (hcs : skipBlanks cs = cs)
    (hv : readValue steps cs = some (v, rest)) :
    readEntries (steps + 1) entries (keyChars key ++ ' ' :: '=' :: ' ' :: cs) = (do
      match ← skipGaps false rest with
      | ',' :: rest => readEntries steps (entries ++ [(key, v)]) rest
      | '}' :: rest => return (entries ++ [(key, v)], rest)
      | _ => none) := by
  obtain ⟨c, tail, hchars, hc⟩ := keyChars_eq_cons key
  have hpath : readPath (keyChars key ++ ' ' :: '=' :: ' ' :: cs).length
      (keyChars key ++ ' ' :: '=' :: ' ' :: cs) = some (([], key), '=' :: ' ' :: cs) :=
    readPath_pathChars [] key (by rw [List.length_append, List.length_cons]; exact Nat.succ_pos _)
      (by decide) rfl (by decide)
  have hblank : skipBlanks (' ' :: cs) = cs := hcs
  rw [hchars, List.cons_append] at hpath ⊢
  rw [readEntries, skipGaps_cons (not_startsGap hc)]
  dsimp only [Option.bind_eq_bind, Option.bind_some]
  split
  · next heq =>
    cases heq
    exact absurd rfl (hc.ne (d := '}') (by decide))
  · rw [hpath]
    have hput := putPair_of_notMem hkey v (show TableKind.braced ≠ .dotted by decide)
    simp only [Option.bind_some, hblank, hv]
    rw [hput]
    rfl

/-- A pair before a closing brace is the last one. -/
theorem readEntries_last (hkey : key ∉ entries.keys) (hcs : skipBlanks cs = cs)
    (hv : readValue steps cs = some (v, '}' :: rest)) :
    readEntries (steps + 1) entries (keyChars key ++ ' ' :: '=' :: ' ' :: cs) =
      some (entries ++ [(key, v)], rest) := by
  rw [readEntries_start hkey hcs hv, skipGaps_cons (by decide)]
  rfl

/-- Behind a pair and a comma the table goes on. -/
theorem readEntries_next (hkey : key ∉ entries.keys) (hcs : skipBlanks cs = cs)
    (hv : readValue steps cs = some (v, ',' :: rest)) :
    readEntries (steps + 1) entries (keyChars key ++ ' ' :: '=' :: ' ' :: cs) =
      readEntries steps (entries ++ [(key, v)]) rest := by
  rw [readEntries_start hkey hcs hv, skipGaps_cons (by decide)]
  rfl

/-- Keys that are new to a table stay so behind another one. -/
theorem notMem_keys_append {keys : List String} {front : Entries} (hnew : key ∉ keys)
    (hfront : ∀ k ∈ keys, k ∉ front.keys) : ∀ k ∈ keys, k ∉ Entries.keys (front ++ [(key, v)]) := by
  intro k hk hmem
  rw [Entries.keys, List.map_append, List.mem_append] at hmem
  obtain hmem | hmem := hmem
  · exact hfront k hk hmem
  · rw [List.mem_singleton.mp hmem] at hk
    exact hnew hk

end

/-! ### All values -/

theorem length_itemsChars_pos (vs : List Value) : 0 < (itemsChars vs).length := by
  cases vs with
  | nil => decide
  | cons v vs =>
    have htail := length_itemsChars_pos vs
    rw [itemsChars, List.length_append, List.length_append]
    omega

theorem length_entriesChars_pos (entries : Entries) : 0 < (entriesChars entries).length := by
  cases entries with
  | nil => decide
  | cons entry entries =>
    rw [entriesChars, List.length_append, List.length_cons]
    omega

theorem skipBlanks_valueChars {v : Value} (h : Printable v) (rest : List Char) :
    skipBlanks (valueChars v ++ rest) = valueChars v ++ rest := by
  obtain ⟨c, cs, hchars, hgap, -⟩ := valueChars_eq_cons h
  rw [hchars]
  exact skipBlanks_cons (not_isBlank hgap) _

mutual

/-- **A value is read back from its text**, and what follows it is left. -/
theorem readValue_chars (v : Value) (h : Printable v) (steps : Nat)
    (hsteps : (valueChars v).length ≤ steps) {c : Char} (hc : EndsValue c) (rest : List Char) :
    readValue steps (valueChars v ++ c :: rest) = some (v, c :: rest) := by
  obtain ⟨d, ds, hchars, -, -⟩ := valueChars_eq_cons h
  obtain ⟨steps, rfl⟩ : ∃ k, steps = k + 1 := by
    rw [hchars, List.length_cons] at hsteps
    exact ⟨steps - 1, by omega⟩
  match v with
  | .text s => exact readValue_quoted s steps hc rest
  | .int i =>
    obtain ⟨d, ds, heq, hds⟩ := toString_int_eq_cons i
    have hword := readWord?_toString i
    rw [valueChars]
    rw [heq] at hword ⊢
    exact readValue_bare hds hword steps hc rest
  | .bool true => exact readValue_bare (List.all_eq_true.mp (by decide)) rfl steps hc rest
  | .bool false => exact readValue_bare (List.all_eq_true.mp (by decide)) rfl steps hc rest
  | .array growing items =>
    obtain ⟨rfl, hitems⟩ := h
    rw [valueChars, List.length_cons] at hsteps
    have hread := readItems_itemsChars items hitems steps (by omega) (c :: rest)
    rw [valueChars, List.cons_append, readValue, hread]
    rfl
  | .table kind entries =>
    obtain ⟨rfl, hentries, hkeys⟩ := h
    rw [valueChars, List.length_cons] at hsteps
    have hread := readEntries_entriesChars entries hentries hkeys steps (by omega) [] (by simp)
      (c :: rest)
    rw [valueChars, List.cons_append, readValue, hread]
    rfl
  | .float _ => exact h.elim
  | .moment => exact h.elim
termination_by structural v

/-- Items are read back, up to the closing bracket. -/
theorem readItems_itemsChars (vs : List Value) (h : PrintableItems vs) (steps : Nat)
    (hsteps : (itemsChars vs).length ≤ steps) (rest : List Char) :
    readItems steps (itemsChars vs ++ rest) = some (vs, rest) := by
  have hpos := length_itemsChars_pos vs
  obtain ⟨steps, rfl⟩ : ∃ k, steps = k + 1 := ⟨steps - 1, by omega⟩
  match vs with
  | [] =>
    rw [itemsChars, List.singleton_append, readItems, skipGaps_cons (by decide)]
    rfl
  | v :: vs =>
    obtain ⟨hv, hvs⟩ := h
    obtain ⟨c, cs, hchars, hgap, hbracket⟩ := valueChars_eq_cons hv
    have hlength := length_itemsChars_pos vs
    have hv_pos : 0 < (valueChars v).length := by rw [hchars]; exact Nat.succ_pos _
    rw [itemsChars, List.length_append, List.length_append] at hsteps
    have hitem {d : Char} (hd : EndsValue d) := readValue_chars v hv steps (by omega) hd
    have hitems := readItems_itemsChars vs hvs steps (by omega) rest
    rw [itemsChars, List.append_assoc, List.append_assoc]
    rw [hchars] at hitem ⊢
    cases vs with
    | nil => exact readItems_last hgap hbracket (hitem (by decide) rest)
    | cons w ws =>
      -- The blank behind the comma is passed over by what reads the rest, in the same step.
      obtain ⟨steps, rfl⟩ : ∃ k, steps = k + 1 := ⟨steps - 1, by omega⟩
      rw [← readItems_space] at hitems
      exact readItems_next hgap hbracket (hitem (by decide) _) hitems
termination_by structural vs

/-- Pairs are read back behind others with other keys, up to the closing brace. -/
theorem readEntries_entriesChars (entries : List (String × Value)) (h : PrintableEntries entries)
    (hkeys : (entries.map Prod.fst).Nodup) (steps : Nat)
    (hsteps : (entriesChars entries).length ≤ steps) (front : Entries)
    (hfront : ∀ key ∈ entries.map Prod.fst, key ∉ front.keys) (rest : List Char) :
    readEntries steps front (entriesChars entries ++ rest) = some (front ++ entries, rest) := by
  have hpos := length_entriesChars_pos entries
  obtain ⟨steps, rfl⟩ : ∃ k, steps = k + 1 := ⟨steps - 1, by omega⟩
  match entries with
  | [] =>
    rw [entriesChars, List.singleton_append, List.append_nil, readEntries,
      skipGaps_cons (by decide)]
    rfl
  | (key, v) :: entries =>
    obtain ⟨hv, hentries⟩ := h
    obtain ⟨hnew, hkeys⟩ := List.nodup_cons.mp hkeys
    obtain ⟨hkey, hfront⟩ := List.forall_mem_cons.mp hfront
    have hlength := length_entriesChars_pos entries
    rw [entriesChars, List.length_append, List.length_cons, List.length_cons, List.length_cons,
      List.length_append, List.length_append] at hsteps
    have hvalue {d : Char} (hd : EndsValue d) := readValue_chars v hv steps (by omega) hd
    have hmore := readEntries_entriesChars entries hentries hkeys steps (by omega)
      (front ++ [(key, v)]) (notMem_keys_append hnew hfront) rest
    have hskip := skipBlanks_valueChars hv
    rw [entriesChars]
    simp only [List.append_assoc, List.cons_append]
    cases entries with
    | nil => exact readEntries_last hkey (hskip _) (hvalue (by decide) rest)
    | cons entry entries =>
      obtain ⟨steps, rfl⟩ : ∃ k, steps = k + 1 := ⟨steps - 1, by omega⟩
      rw [← readEntries_space, List.append_assoc] at hmore
      exact (readEntries_next hkey (hskip _) (hvalue (by decide) _)).trans hmore
termination_by structural entries

end

end NoteTools.Toml
