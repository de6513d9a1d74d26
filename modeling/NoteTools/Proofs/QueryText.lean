import NoteTools.Proofs.QueryGrammar
import NoteTools.Text.Quoted

/-!
# The written forms of compiled queries

What is read from a compiled query has a written form. A written form is read back as what it was
made of, provided that its words are words; what follows must not go on with a word.

Main definitions:

* `Operand.text`, `Atom.text`, `Conjunct.text`, `limitText`: the written forms;
* `Atom.Readable`: the words of an atom are words.

Results:

* `readsTail_text`: conjuncts and a limit are read back from their written forms;
* `isWord_of_isFiniteNumber`: a number that stands without quotes is a word.
-/

namespace NoteTools

open Grammar

/-! ## Written forms -/

namespace Grammar

/-- The written form of a value. -/
def Operand.text : Operand → String
  | .literal text => Text.Quoted.quote text
  | .word w => w

/-- The written form of an atom. -/
def Atom.text (a : Atom) : String :=
  "note." ++ a.key ++ " " ++ a.op ++ " " ++ a.operand.text

/-- The written form of a conjunct. -/
def Conjunct.text : Conjunct → String
  | .atom a => a.text
  | .anyOf first second others =>
    "~(" ++ " OR ".intercalate ((first :: second :: others).map Atom.text) ++ ")"

/-- A value whose written form can be read back. -/
def Operand.Readable : Operand → Prop
  | .literal _ => True
  | .word w => IsWord w.toList

/-- An atom whose written form can be read back. -/
structure Atom.Readable (a : Atom) : Prop where
  key : IsWord a.key.toList
  op : IsWord a.op.toList
  operand : a.operand.Readable

/-- The texts, each behind a space. -/
def spaced (texts : List String) : List Char :=
  texts.flatMap fun t => ' ' :: t.toList

/-! ## Written forms are read back -/

theorem readsWord_append {w : String} {rest : List Char} (h : IsWord w.toList)
    (hrest : EndsWord rest) : ReadsWord (w.toList ++ rest) w rest := ⟨rfl, h, hrest⟩

theorem readsLiteral_escape (cs rest : List Char) :
    ReadsLiteral (Text.Quoted.escape cs ++ '\'' :: rest) cs rest := by
  induction cs with
  | nil => exact .close rest
  | cons c cs ih =>
    rw [Text.Quoted.escape]
    split
    · exact .escaped ih
    · next h =>
      rw [not_or] at h
      exact .plain h.2 h.1 ih

theorem readsOperand_text {x : Operand} {rest : List Char} (h : x.Readable)
    (hrest : EndsWord rest) : ReadsOperand (x.text.toList ++ rest) x rest := by
  cases x with
  | literal t =>
    have hlit := ReadsOperand.literal (readsLiteral_escape t.toList rest)
    simpa [Operand.text, Text.Quoted.quote] using hlit
  | word w => exact .word (readsWord_append h hrest)

theorem readsAtom_text {a : Atom} {rest : List Char} (h : a.Readable) (hrest : EndsWord rest) :
    ReadsAtom (a.text.toList ++ rest) a rest := by
  have hspace := endsWord_cons isWordChar_space
  have hatom := ReadsAtom.mk (readsWord_append h.key (hspace _)) (readsWord_append h.op (hspace _))
    (readsOperand_text h.operand hrest)
  simpa [Atom.text] using hatom

theorem readsOthers_text {others : List Atom} (h : ∀ a ∈ others, a.Readable) (rest : List Char) :
    ReadsOthers (others.flatMap (fun a => ' ' :: 'O' :: 'R' :: ' ' :: a.text.toList) ++ ')' :: rest)
      others rest := by
  induction others with
  | nil => exact .close rest
  | cons a others ih =>
    obtain ⟨ha, hothers⟩ := List.forall_mem_cons.mp h
    have hends : EndsWord
        (others.flatMap (fun a => ' ' :: 'O' :: 'R' :: ' ' :: a.text.toList) ++ ')' :: rest) := by
      cases others with
      | nil => exact endsWord_cons rfl _
      | cons b others => exact endsWord_cons isWordChar_space _
    have hcons := ReadsOthers.cons (readsAtom_text ha hends) (ih hothers)
    simpa using hcons

/-- Alternatives with a separator in front of each but the first. -/
theorem toList_intercalate_cons (separator first : String) (others : List String) :
    (separator.intercalate (first :: others)).toList =
      first.toList ++ others.flatMap fun t => separator.toList ++ t.toList := by
  induction others generalizing first with
  | nil => simp
  | cons second others ih =>
    rw [String.intercalate_cons_cons, String.toList_append, String.toList_append, ih]
    simp

theorem readsConjunct_text {c : Conjunct} {rest : List Char} (h : ∀ a ∈ c.atoms, a.Readable)
    (hrest : EndsWord rest) : ReadsConjunct (c.text.toList ++ rest) c rest := by
  cases c with
  | atom a => exact .atom (readsAtom_text (h a (by simp [Conjunct.atoms])) hrest)
  | anyOf first second others =>
    obtain ⟨hfirst, hothers⟩ := List.forall_mem_cons.mp h
    have hread := readsOthers_text hothers rest
    have hany :=
      ReadsConjunct.anyOf (readsAtom_text hfirst (endsWord_cons isWordChar_space _)) hread
    rw [Conjunct.text, List.map_cons, String.toList_append, String.toList_append,
      toList_intercalate_cons]
    simpa [List.flatMap_def, Function.comp_def] using hany

theorem endsWord_spaced (texts : List String) {rest : List Char} (h : EndsWord rest) :
    EndsWord (spaced texts ++ rest) := by
  cases texts with
  | nil => exact h
  | cons t texts => exact endsWord_cons isWordChar_space _

theorem readsTail_text {conjuncts : List Conjunct} {rest : List Char} {limit : Option Nat}
    (h : ∀ a ∈ conjuncts.flatMap Conjunct.atoms, a.Readable) (hrest : EndsWord rest)
    (hlimit : ReadsTail rest [] limit) :
    ReadsTail (spaced (conjuncts.map Conjunct.text) ++ rest) conjuncts limit := by
  induction conjuncts with
  | nil => exact hlimit
  | cons c conjuncts ih =>
    rw [List.flatMap_cons, List.forall_mem_append] at h
    have hread := readsConjunct_text h.1 (endsWord_spaced (conjuncts.map Conjunct.text) hrest)
    have hcons := ReadsTail.cons hread (ih h.2)
    simpa [spaced] using hcons

end Grammar

/-! ## Numerals -/

/-- The written form of a limit. -/
def limitText : Option Nat → String
  | some n => " limit " ++ toString n
  | none => ""

theorem digitsValue_toString (n : Nat) : Numeric.digitsValue (toString n).toList = n := by
  rw [Nat.toString_eq_ofList_toDigits, String.toList_ofList, Numeric.digitsValue_toDigits]

theorem readsTail_limitText (limit : Option Nat) :
    ReadsTail (limitText limit).toList [] limit := by
  cases limit with
  | none => exact .done
  | some n =>
    have hdigits : (toString n).toList = Nat.toDigits 10 n := by
      rw [Nat.toString_eq_ofList_toDigits, String.toList_ofList]
    have hread := ReadsTail.limit (hdigits ▸ Nat.toDigits_ne_nil)
      (fun c hc => Nat.isDigit_of_mem_toDigits (by decide) (by decide) (hdigits ▸ hc))
    rw [digitsValue_toString] at hread
    rwa [limitText, String.toList_append]

theorem endsWord_limitText (limit : Option Nat) : EndsWord (limitText limit).toList := by
  cases limit with
  | none => rintro c ⟨⟩
  | some n =>
    rw [limitText, String.toList_append]
    exact endsWord_cons isWordChar_space _

/-! ## Numbers are words -/

namespace Numeric

open Literal

theorem isWordChar_of_isDigit {c : Char} (h : c.isDigit = true) : isWordChar c = true := by
  simp only [isWordChar, Bool.and_eq_true, bne_iff_ne]
  refine ⟨⟨⟨?_, ?_⟩, ?_⟩, ?_⟩ <;> rintro rfl <;> exact absurd h (by decide)

theorem forall_isWordChar_takeWhile (cs : List Char) :
    ∀ c ∈ cs.takeWhile Char.isDigit, isWordChar c = true := fun c hc =>
  isWordChar_of_isDigit (List.all_eq_true.mp List.all_takeWhile c hc)

/-- A sign is a character of a word. -/
theorem forall_isWordChar_of_takeSign {cs : List Char}
    (h : ∀ c ∈ (takeSign cs).2, isWordChar c = true) : ∀ c ∈ cs, isWordChar c = true := by
  unfold takeSign at h
  split at h
  · exact List.forall_mem_cons.mpr ⟨rfl, h⟩
  · exact List.forall_mem_cons.mpr ⟨rfl, h⟩
  · exact h

theorem forall_isWordChar_of_readExponent? {cs : List Char} {n : Int}
    (h : readExponent? cs = some n) : ∀ c ∈ cs, isWordChar c = true := by
  cases cs with
  | nil => simp
  | cons e cs =>
    rw [readExponent?] at h
    by_cases he : e = 'e' ∨ e = 'E'
    · rw [if_pos he] at h
      have hdigits := (Option.ite_none_right_eq_some.mp h).1
      have hall := List.all_eq_true.mp (Bool.and_eq_true_iff.mp hdigits).2
      refine List.forall_mem_cons.mpr ⟨?_, forall_isWordChar_of_takeSign fun c hc =>
        isWordChar_of_isDigit (hall c hc)⟩
      rcases he with rfl | rfl <;> rfl
    · rw [if_neg he] at h
      cases h

theorem forall_isWordChar_of_read? {cs : List Char} {l : Literal} (h : read? cs = some l) :
    ∀ c ∈ cs, isWordChar c = true := by
  apply forall_isWordChar_of_takeSign
  unfold read? at h
  simp only at h
  rw [← List.takeWhile_append_dropWhile (p := Char.isDigit) (l := (takeSign cs).2),
    List.forall_mem_append]
  refine ⟨forall_isWordChar_takeWhile _, ?_⟩
  split at h
  · -- A point, further digits and an exponent.
    next after heq =>
    obtain ⟨n, hn, -⟩ := Option.map_eq_some_iff.mp (Option.ite_none_left_eq_some.mp h).2
    rw [heq, ← List.takeWhile_append_dropWhile (p := Char.isDigit) (l := after)]
    exact List.forall_mem_cons.mpr ⟨rfl, List.forall_mem_append.mpr
      ⟨forall_isWordChar_takeWhile after, forall_isWordChar_of_readExponent? hn⟩⟩
  · obtain ⟨n, hn, -⟩ := Option.map_eq_some_iff.mp (Option.ite_none_left_eq_some.mp h).2
    exact forall_isWordChar_of_readExponent? hn

/-- **A number stands without quotes.** None of its characters can end a word. -/
theorem isWord_of_isFiniteNumber {s : String} (h : isFiniteNumber s = true) :
    IsWord s.toList := by
  unfold isFiniteNumber at h
  split at h
  · next l hl =>
    refine ⟨?_, forall_isWordChar_of_read? hl⟩
    intro hnil
    rw [hnil] at hl
    cases hl
  · cases h

end Numeric

end NoteTools
