import NoteTools.Numeric.Literal

/-!
# The grammar of compiled queries

A query of conditions on note properties starts with a condition that always holds. Behind it stand
conditions, each after a space; several of which one has to hold stand in parentheses. A limit may
follow. Read from left to right, this leaves no choice.

    query       ::=  note.noteId != ''  ( SPACE conjunct )*  [ SPACE limit SPACE numeral ]
    conjunct    ::=  atom  |  ~( atom ( SPACE OR SPACE atom )+ )
    atom        ::=  note.key SPACE operator SPACE value
    value       ::=  literal  |  word

A literal stands between single quotes, and a backslash in it stands for the character behind it. A
word goes on as far as it can: up to a space, a single quote, a parenthesis or the end.

Main definitions:

* `Atom`, `Conjunct`, `Reading`: what is read;
* `ReadsQuery`: the grammar, as a relation between a text and what is read; the relations of its
  parts also give the rest of the text.

Results:

* `ReadsQuery.unique`: no text has two readings.
-/

namespace NoteTools.Grammar

/-! ## What is read -/

/-- A value, as it stands in a condition. -/
inductive Operand where
  /-- A literal, by the text it stands for. -/
  | literal (text : String)
  /-- A bare word. -/
  | word (text : String)
  deriving DecidableEq, Repr

/-- A condition on a note property. -/
structure Atom where
  /-- The key of the property. -/
  key : String
  /-- The token of the operator. -/
  op : String
  /-- The value. -/
  operand : Operand
  deriving DecidableEq, Repr

/-- A condition, or two and more of which one has to hold. -/
inductive Conjunct where
  | atom (a : Atom)
  | anyOf (first second : Atom) (others : List Atom)
  deriving DecidableEq, Repr

/-- The atoms of a conjunct, in order. -/
def Conjunct.atoms : Conjunct → List Atom
  | .atom a => [a]
  | .anyOf first second others => first :: second :: others

/-- A query, as it is read. -/
structure Reading where
  /-- What has to hold. -/
  conjuncts : List Conjunct
  /-- The limit. -/
  limit : Option Nat
  deriving DecidableEq, Repr

/-! ## The grammar -/

/-- A character of a word. -/
def isWordChar (c : Char) : Bool :=
  c != ' ' && c != '\'' && c != '(' && c != ')'

/-- A text that does not go on with a character of a word. -/
def EndsWord (rest : List Char) : Prop :=
  ∀ c ∈ rest.head?, isWordChar c = false

/-- Characters that make up a word. -/
def IsWord (w : List Char) : Prop :=
  w ≠ [] ∧ ∀ c ∈ w, isWordChar c = true

-- The characters of the word are tried, not all characters there are.
instance (w : List Char) : Decidable (IsWord w) :=
  decidable_of_iff (w ≠ [] ∧ w.all isWordChar = true) (by rw [IsWord, List.all_eq_true])

/-- A text that starts with a word; the word is as long as it can be. -/
structure ReadsWord (cs : List Char) (word : String) (rest : List Char) : Prop where
  eq : cs = word.toList ++ rest
  isWord : IsWord word.toList
  ends : EndsWord rest

/-- A text that starts with the inside of a literal and the quote that ends it. -/
inductive ReadsLiteral : List Char → List Char → List Char → Prop
  | close (rest : List Char) : ReadsLiteral ('\'' :: rest) [] rest
  | plain {c : Char} {cs text rest : List Char} : c ≠ '\'' → c ≠ '\\' →
    ReadsLiteral cs text rest → ReadsLiteral (c :: cs) (c :: text) rest
  | escaped {c : Char} {cs text rest : List Char} : ReadsLiteral cs text rest →
    ReadsLiteral ('\\' :: c :: cs) (c :: text) rest

/-- A text that starts with a value. -/
inductive ReadsOperand : List Char → Operand → List Char → Prop
  | literal {cs text rest : List Char} : ReadsLiteral cs text rest →
    ReadsOperand ('\'' :: cs) (.literal (String.ofList text)) rest
  | word {cs rest : List Char} {word : String} : ReadsWord cs word rest →
    ReadsOperand cs (.word word) rest

/-- A text that starts with an atom. -/
inductive ReadsAtom : List Char → Atom → List Char → Prop
  | mk {cs afterKey afterOp rest : List Char} {a : Atom} :
    ReadsWord cs a.key (' ' :: afterKey) → ReadsWord afterKey a.op (' ' :: afterOp) →
    ReadsOperand afterOp a.operand rest →
    ReadsAtom ('n' :: 'o' :: 't' :: 'e' :: '.' :: cs) a rest

/-- A text that starts with further alternatives and the parenthesis that ends them. -/
inductive ReadsOthers : List Char → List Atom → List Char → Prop
  | close (rest : List Char) : ReadsOthers (')' :: rest) [] rest
  | cons {cs afterAtom rest : List Char} {a : Atom} {others : List Atom} :
    ReadsAtom cs a afterAtom → ReadsOthers afterAtom others rest →
    ReadsOthers (' ' :: 'O' :: 'R' :: ' ' :: cs) (a :: others) rest

/-- A text that starts with a conjunct. -/
inductive ReadsConjunct : List Char → Conjunct → List Char → Prop
  | atom {cs rest : List Char} {a : Atom} : ReadsAtom cs a rest → ReadsConjunct cs (.atom a) rest
  | anyOf {cs afterFirst rest : List Char} {first second : Atom} {others : List Atom} :
    ReadsAtom cs first afterFirst → ReadsOthers afterFirst (second :: others) rest →
    ReadsConjunct ('~' :: '(' :: cs) (.anyOf first second others) rest

/-- What stands behind the first condition: conjuncts and a limit, up to the end. -/
inductive ReadsTail : List Char → List Conjunct → Option Nat → Prop
  | done : ReadsTail [] [] none
  | limit {digits : List Char} : digits ≠ [] → (∀ c ∈ digits, c.isDigit = true) →
    ReadsTail (' ' :: 'l' :: 'i' :: 'm' :: 'i' :: 't' :: ' ' :: digits) []
      (some (Numeric.digitsValue digits))
  | cons {cs afterConjunct : List Char} {c : Conjunct} {conjuncts : List Conjunct}
    {limit : Option Nat} : ReadsConjunct cs c afterConjunct →
    ReadsTail afterConjunct conjuncts limit → ReadsTail (' ' :: cs) (c :: conjuncts) limit

/-- A whole query and its reading. -/
def ReadsQuery (line : String) (r : Reading) : Prop :=
  ∃ tail, line.toList = "note.noteId != ''".toList ++ tail ∧ ReadsTail tail r.conjuncts r.limit

/-! ## Uniqueness -/

theorem isWordChar_space : isWordChar ' ' = false := rfl

theorem endsWord_cons {c : Char} (h : isWordChar c = false) (rest : List Char) :
    EndsWord (c :: rest) := by
  rintro d hd
  cases hd
  exact h

/-- A text is cut in one way only where a class of characters ends. -/
theorem append_unique {p : Char → Bool} {w w' rest rest' : List Char}
    (hw : ∀ c ∈ w, p c = true) (hrest : ∀ c ∈ rest.head?, p c = false)
    (hw' : ∀ c ∈ w', p c = true) (hrest' : ∀ c ∈ rest'.head?, p c = false)
    (h : w ++ rest = w' ++ rest') : w = w' ∧ rest = rest' := by
  have htake {w rest : List Char} (hw : ∀ c ∈ w, p c = true)
      (hrest : ∀ c ∈ rest.head?, p c = false) : (w ++ rest).takeWhile p = w := by
    rw [List.takeWhile_append_of_pos hw]
    cases rest with
    | nil => simp
    | cons c rest => simp [hrest c rfl]
  obtain rfl : w = w' := by rw [← htake hw hrest, ← htake hw' hrest', h]
  exact ⟨rfl, List.append_cancel_left h⟩

namespace ReadsWord

variable {cs rest rest' : List Char} {word word' : String}

theorem head_isWordChar (h : ReadsWord cs word rest) :
    ∃ c tail, cs = c :: tail ∧ isWordChar c = true := by
  obtain ⟨c, w, hw⟩ := List.exists_cons_of_ne_nil h.isWord.1
  exact ⟨c, w ++ rest, by rw [h.eq, hw]; rfl, h.isWord.2 c (by simp [hw])⟩

theorem unique (h : ReadsWord cs word rest) (h' : ReadsWord cs word' rest') :
    word = word' ∧ rest = rest' := by
  obtain ⟨hword, hrest⟩ :=
    append_unique h.isWord.2 h.ends h'.isWord.2 h'.ends (h.eq.symm.trans h'.eq)
  exact ⟨String.toList_inj.mp hword, hrest⟩

end ReadsWord

theorem ReadsLiteral.unique {cs text text' rest rest' : List Char}
    (h : ReadsLiteral cs text rest) (h' : ReadsLiteral cs text' rest') :
    text = text' ∧ rest = rest' := by
  induction h generalizing text' with
  | close rest =>
    cases h' with
    | close => exact ⟨rfl, rfl⟩
    | plain hquote => exact absurd rfl hquote
  | plain hquote hslash _ ih =>
    cases h' with
    | close => exact absurd rfl hquote
    | plain _ _ h' => obtain ⟨rfl, rfl⟩ := ih h'; exact ⟨rfl, rfl⟩
    | escaped => exact absurd rfl hslash
  | escaped _ ih =>
    cases h' with
    | plain _ hslash => exact absurd rfl hslash
    | escaped h' => obtain ⟨rfl, rfl⟩ := ih h'; exact ⟨rfl, rfl⟩

theorem ReadsOperand.unique {cs rest rest' : List Char} {x x' : Operand}
    (h : ReadsOperand cs x rest) (h' : ReadsOperand cs x' rest') : x = x' ∧ rest = rest' := by
  -- A quote starts a literal and no word.
  have hquote : ∀ {cs rest word}, ¬ ReadsWord ('\'' :: cs) word rest := by
    intro cs rest word hword
    obtain ⟨c, tail, hcs, hc⟩ := hword.head_isWordChar
    cases hcs
    exact absurd hc (by decide)
  cases h with
  | literal h =>
    cases h' with
    | literal h' => obtain ⟨rfl, rfl⟩ := h.unique h'; exact ⟨rfl, rfl⟩
    | word h' => exact absurd h' hquote
  | word h =>
    cases h' with
    | literal h' => exact absurd h hquote
    | word h' => obtain ⟨rfl, rfl⟩ := h.unique h'; exact ⟨rfl, rfl⟩

theorem ReadsAtom.unique {cs rest rest' : List Char} {a a' : Atom} (h : ReadsAtom cs a rest)
    (h' : ReadsAtom cs a' rest') : a = a' ∧ rest = rest' := by
  obtain ⟨hkey, hop, hoperand⟩ := h
  obtain ⟨hkey', hop', hoperand'⟩ := h'
  obtain ⟨key, op, operand⟩ := a
  obtain ⟨key', op', operand'⟩ := a'
  obtain ⟨rfl, heq⟩ := hkey.unique hkey'
  cases heq
  obtain ⟨rfl, heq⟩ := hop.unique hop'
  cases heq
  obtain ⟨rfl, rfl⟩ := hoperand.unique hoperand'
  exact ⟨rfl, rfl⟩

theorem ReadsOthers.unique {cs rest rest' : List Char} {others others' : List Atom}
    (h : ReadsOthers cs others rest) (h' : ReadsOthers cs others' rest') :
    others = others' ∧ rest = rest' := by
  induction h generalizing others' with
  | close => cases h'; exact ⟨rfl, rfl⟩
  | cons ha _ ih =>
    obtain _ | ⟨ha', h'⟩ := h'
    obtain ⟨rfl, rfl⟩ := ha.unique ha'
    obtain ⟨rfl, rfl⟩ := ih h'
    exact ⟨rfl, rfl⟩

theorem ReadsConjunct.unique {cs rest rest' : List Char} {c c' : Conjunct}
    (h : ReadsConjunct cs c rest) (h' : ReadsConjunct cs c' rest') : c = c' ∧ rest = rest' := by
  cases h with
  | atom ha =>
    cases h' with
    | atom ha' => obtain ⟨rfl, rfl⟩ := ha.unique ha'; exact ⟨rfl, rfl⟩
    | anyOf => cases ha
  | anyOf ha hothers =>
    cases h' with
    | atom ha' => cases ha'
    | anyOf ha' hothers' =>
      obtain ⟨rfl, rfl⟩ := ha.unique ha'
      obtain ⟨heq, rfl⟩ := hothers.unique hothers'
      cases heq
      exact ⟨rfl, rfl⟩

/-- A limit is no conjunct. -/
theorem not_readsConjunct_limit {cs rest : List Char} {c : Conjunct} :
    ¬ ReadsConjunct ('l' :: cs) c rest := by
  rintro (⟨⟨⟩⟩ | _)

theorem ReadsTail.unique {cs : List Char} {conjuncts conjuncts' : List Conjunct}
    {limit limit' : Option Nat} (h : ReadsTail cs conjuncts limit)
    (h' : ReadsTail cs conjuncts' limit') : conjuncts = conjuncts' ∧ limit = limit' := by
  induction h generalizing conjuncts' with
  | done => cases h'; exact ⟨rfl, rfl⟩
  | limit =>
    cases h' with
    | limit => exact ⟨rfl, rfl⟩
    | cons hc => exact absurd hc not_readsConjunct_limit
  | cons hc _ ih =>
    cases h' with
    | limit => exact absurd hc not_readsConjunct_limit
    | cons hc' h' =>
      obtain ⟨rfl, rfl⟩ := hc.unique hc'
      obtain ⟨rfl, rfl⟩ := ih h'
      exact ⟨rfl, rfl⟩

/-- **The grammar is unambiguous.** No text has two readings. -/
theorem ReadsQuery.unique {line : String} {r r' : Reading} (h : ReadsQuery line r)
    (h' : ReadsQuery line r') : r = r' := by
  obtain ⟨tail, heq, h⟩ := h
  obtain ⟨tail', heq', h'⟩ := h'
  obtain rfl : tail = tail' := List.append_cancel_left (heq.symm.trans heq')
  obtain ⟨conjuncts, limit⟩ := r
  obtain ⟨conjuncts', limit'⟩ := r'
  obtain ⟨rfl, rfl⟩ := h.unique h'
  rfl

end NoteTools.Grammar
