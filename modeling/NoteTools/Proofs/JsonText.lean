import NoteTools.Json.Printer
import NoteTools.Json.Reader
import NoteTools.Proofs.SpelledNumbers

/-!
# JSON text can be read back

The compact text of a value is read back as the value, whatever its texts hold, provided that its
numbers are whole and have at most 64 bits. What follows a value must not go on with its last
number.

Main definitions:

* `pieceOf`: the piece as which an escaped character is read back;
* `Exact`: the numbers of a value are whole and have at most 64 bits.

Results:

* `readText_escape`: an escaped text is read back;
* `readNumber_toDigits`: a whole number is read back;
* `readValue_chars`: a value is read back, and what follows it is left;
* `parse_text`: the text of a value is the text of that value only.
-/

namespace NoteTools.Json

/-! ## Texts -/

theorem hexValue?_hexDigit : ∀ n < 16, hexValue? (some (hexDigit n)) = some n := by decide

theorem unitValue?_hexDigits {n : Nat} (h : n < 256) :
    unitValue? (some '0') (some '0') (some (hexDigit (n / 16))) (some (hexDigit (n % 16))) =
      some n := by
  have hzero : hexValue? (some '0') = some 0 := rfl
  have hvalue : ((0 * 16 + 0) * 16 + n / 16) * 16 + n % 16 = n := by omega
  simp only [unitValue?, hzero, hexValue?_hexDigit (n / 16) (by omega),
    hexValue?_hexDigit (n % 16) (by omega), Option.bind_eq_bind, Option.bind_some, Option.pure_def,
    hvalue]

/-- The control characters that are escaped by a letter. -/
def letteredControls : List Char := ['\x08', '\x0c', '\n', '\r', '\t']

/-- The piece as which an escaped character is read back. -/
def pieceOf (c : Char) : Piece :=
  if c.toNat < 0x20 ∧ c ∉ letteredControls then .unit c.toNat else .char c

theorem pieces_plain {c : Char} (hquote : c ≠ '"') (hslash : c ≠ '\\') (hcontrol : ¬ c.toNat < 0x20)
    (gs : List Glyph) : pieces (some c :: gs) = (.char c :: (pieces gs).1, (pieces gs).2) := by
  rw [pieces, if_neg hcontrol]
  · exact hquote
  all_goals intros
  all_goals exact hslash ‹_›

theorem pieces_escapeChar (c : Char) (gs : List Glyph) :
    pieces ((escapeChar c).map some ++ gs) = (pieceOf c :: (pieces gs).1, (pieces gs).2) := by
  unfold escapeChar
  split
  · subst c; rfl
  split
  · subst c; rfl
  split
  · subst c; rfl
  split
  · subst c; rfl
  split
  · subst c; rfl
  split
  · subst c; rfl
  split
  · subst c; rfl
  split
  · next h =>
    have hpiece : pieceOf c = .unit c.toNat := by simp [pieceOf, letteredControls, *]
    simp [pieces, unitValue?_hexDigits (show c.toNat < 256 by omega), hpiece]
  · next h =>
    have hpiece : pieceOf c = .char c := by simp [pieceOf, h]
    rw [hpiece]
    exact pieces_plain ‹_› ‹_› h gs

theorem pieces_escape (cs : List Char) (rest : List Glyph) :
    pieces ((escape cs).map some ++ some '"' :: rest) = (cs.map pieceOf, .closed rest) := by
  induction cs with
  | nil => rfl
  | cons c cs ih =>
    rw [escape, List.flatMap_cons, ← escape, List.map_append, List.append_assoc, pieces_escapeChar,
      ih]
    rfl

theorem joinPieces_unit {n : Nat} (h : n < 0xD800) (ps : List Piece) :
    joinPieces (.unit n :: ps) = (joinPieces ps).map (Char.ofNat n :: ·) := by
  have hlow : isLow n = false := by simp [isLow]; omega
  have hhigh : isHigh n = false := by simp [isHigh]; omega
  have hbind : joinPieces (.unit n :: ps) = do return Char.ofNat n :: (← joinPieces ps) := by
    rcases ps with _ | ⟨_ | m | _, ps⟩ <;> simp only [joinPieces, hlow, hhigh] <;> rfl
  rw [hbind]
  cases joinPieces ps <;> rfl

theorem joinPieces_pieceOf (cs : List Char) : joinPieces (cs.map pieceOf) = .ok cs := by
  induction cs with
  | nil => rfl
  | cons c cs ih =>
    rw [List.map_cons, pieceOf]
    split
    · next h =>
      rw [joinPieces_unit (by omega), ih, Char.ofNat_toNat]
      rfl
    · rw [joinPieces, ih]
      rfl

theorem readText_escape (s : String) (rest : List Glyph) :
    readText ((escape s.toList).map some ++ some '"' :: rest) = .done (.ok s) rest := by
  have hbad : (s.toList.map pieceOf).contains .bad = false := by
    rw [List.contains_eq_mem, decide_eq_false_iff_not, List.mem_map]
    rintro ⟨c, -, hc⟩
    unfold pieceOf at hc
    split at hc <;> cases hc
  rw [readText, pieces_escape]
  simp only [joinPieces_pieceOf, hbad, Except.bind, bind, if_false, String.ofList_toList,
    Bool.false_eq_true]

/-! ## Whole numbers -/

/-- What follows a number must not go on with it. -/
def EndsNumber (rest : List Glyph) : Prop :=
  ∀ c, rest.head? = some (some c) → c.isDigit = false ∧ c ∉ ['.', 'e', 'E']

theorem endsNumber_cons {c : Char} (hdigit : c.isDigit = false) (hscale : c ∉ ['.', 'e', 'E'])
    (rest : List Glyph) : EndsNumber (some c :: rest) := by
  intro d hd
  cases hd
  exact ⟨hdigit, hscale⟩

theorem takeDigits_append {ds : List Char} (hds : ∀ d ∈ ds, d.isDigit = true) {rest : List Glyph}
    (hrest : EndsNumber rest) : takeDigits (ds.map some ++ rest) = (ds, rest) := by
  induction ds with
  | nil =>
    match rest with
    | [] => rfl
    | none :: rest => rfl
    | some c :: rest => simp [takeDigits, (hrest c rfl).1]
  | cons d ds ih =>
    obtain ⟨hd, hds⟩ := List.forall_mem_cons.mp hds
    simp [takeDigits, hd, ih hds]

theorem le_ofDigitChars (ds : List Char) (n : Nat) : n ≤ Nat.ofDigitChars 10 ds n := by
  induction ds generalizing n with
  | nil => exact Nat.le_of_eq Nat.ofDigitChars_nil.symm
  | cons d ds ih =>
    rw [Nat.ofDigitChars_cons]
    have hstep := ih (10 * n + (d.toNat - '0'.toNat))
    omega

/-- All digits of a number that fits are gathered. -/
theorem gather_eq (ds : List Char) (n : Nat) (h : Nat.ofDigitChars 10 ds n ≤ maxWord) :
    gather n ds = (Nat.ofDigitChars 10 ds n, []) := by
  induction ds generalizing n with
  | nil => rw [Nat.ofDigitChars_nil, gather]
  | cons d ds ih =>
    have hnext : n * 10 + (d.toNat - 48) = 10 * n + (d.toNat - '0'.toNat) := by
      rw [Nat.mul_comm]; rfl
    rw [Nat.ofDigitChars_cons] at h ⊢
    have hle := le_ofDigitChars ds (10 * n + (d.toNat - '0'.toNat))
    rw [gather, hnext, if_pos (by omega), ih _ h]

theorem gather_toDigits {n : Nat} (h : n ≤ maxWord) : gather 0 (Nat.toDigits 10 n) = (n, []) := by
  rw [gather_eq] <;> rw [Nat.ofDigitChars_ten_toDigits]
  exact h

/-- A list of digits that no zero leads is read as one number. -/
theorem readNumber_digits (negative : Bool) {ds : List Char} {rest : List Glyph} (hne : ds ≠ [])
    (hds : ∀ d ∈ ds, d.isDigit = true) (hzero : ds.head? = some '0' → ds = ['0'])
    (hrest : EndsNumber rest) :
    readNumber negative (ds.map some ++ rest) =
      match numberValue negative ds none none false with
      | .ok n => (.number n, some rest)
      | .error f => (.flaw f, some rest) := by
  rw [readNumber, takeDigits_append hds hrest]
  split
  · next heq => cases heq; exact absurd rfl hne
  · next heq =>
    cases heq
    cases hzero rfl
  · next heq =>
    cases heq
    exact absurd (hrest '.' rfl).2 (by decide)
  · next heq =>
    cases heq
    unfold readScale
    split
    · exact absurd (hrest 'e' rfl).2 (by decide)
    · exact absurd (hrest 'E' rfl).2 (by decide)
    · rfl

theorem readNumber_toDigits (negative : Bool) (n : Nat) {rest : List Glyph}
    (hrest : EndsNumber rest) :
    readNumber negative ((Nat.toDigits 10 n).map some ++ rest) =
      match numberValue negative (Nat.toDigits 10 n) none none false with
      | .ok n => (.number n, some rest)
      | .error f => (.flaw f, some rest) := by
  apply readNumber_digits negative Nat.toDigits_ne_nil _ _ hrest
  · intro d hd
    exact Nat.isDigit_of_mem_toDigits (by decide) (by decide) hd
  · intro hhead
    rcases Nat.eq_zero_or_pos n with rfl | hpos
    · rfl
    · exact absurd hhead (Numeric.head?_toDigits hpos)

/-- The whole numbers that the reader takes as such. -/
def Fits (i : Int) : Prop :=
  -0x8000000000000000 ≤ i ∧ i ≤ 0xFFFFFFFFFFFFFFFF

theorem readNumber_ofNat {n : Nat} (h : Fits n) {rest : List Glyph} (hrest : EndsNumber rest) :
    readNumber false ((Nat.toDigits 10 n).map some ++ rest) =
      (.number (.int n), some rest) := by
  have hword : n ≤ maxWord := by
    have hhigh := h.2
    unfold maxWord
    omega
  rw [readNumber_toDigits false n hrest, numberValue, gather_toDigits hword]
  rfl

theorem readNumber_negSucc {n : Nat} (h : Fits (Int.negSucc n)) {rest : List Glyph}
    (hrest : EndsNumber rest) :
    readNumber true ((Nat.toDigits 10 (n + 1)).map some ++ rest) =
      (.number (.int (Int.negSucc n)), some rest) := by
  have hlow : n + 1 ≤ 0x8000000000000000 := by
    have hlow := h.1
    omega
  have hword : n + 1 ≤ maxWord := by
    unfold maxWord
    omega
  have hbounds : 0 < n + 1 ∧ n + 1 ≤ 0x8000000000000000 := ⟨Nat.succ_pos n, hlow⟩
  rw [readNumber_toDigits true (n + 1) hrest, numberValue, gather_toDigits hword]
  simp only [Bool.not_true, Bool.false_eq_true, if_false, if_pos hbounds]
  rfl

/-! ## Values -/

mutual

/-- The numbers of a value are whole and have at most 64 bits. -/
def Exact : Json → Prop
  | .num (.int i) => Fits i
  | .num (.real _) => False
  | .arr items => ExactItems items
  | .obj members => ExactMembers members
  | _ => True

/-- The numbers of all items are. -/
def ExactItems : List Json → Prop
  | [] => True
  | j :: js => Exact j ∧ ExactItems js

/-- The numbers of all members are. -/
def ExactMembers : List (String × Json) → Prop
  | [] => True
  | (_, j) :: members => Exact j ∧ ExactMembers members

end

theorem exactMembers_append {members members' : List (String × Json)} (h : ExactMembers members)
    (h' : ExactMembers members') : ExactMembers (members ++ members') := by
  induction members with
  | nil => exact h'
  | cons m members ih => exact ⟨h.1, ih h.2⟩

theorem exactMembers_textMember? (key : String) (text : Option String) :
    ExactMembers (textMember? key text) := by
  cases text with
  | none => trivial
  | some s => exact ⟨trivial, trivial⟩

theorem skipGap_cons {c : Char} (h : isGap (some c) = false) (gs : List Glyph) :
    skipGap (some c :: gs) = some c :: gs := by
  rw [skipGap, List.dropWhile_cons, h]
  rfl

theorem isGap_of_isDigit {c : Char} (h : c.isDigit = true) : isGap (some c) = false := by
  have hne : ∀ d : Char, d.isDigit = false → (some c == some d) = false := by
    intro d hd
    rw [beq_eq_false_iff_ne]
    rintro ⟨⟩
    rw [h] at hd
    cases hd
  simp only [isGap, hne ' ' rfl, hne '\n' rfl, hne '\t' rfl, hne '\r' rfl, Bool.or_false]

theorem readValue_of_isDigit {c : Char} (h : c.isDigit = true) (steps : Nat) (gs : List Glyph) :
    readValue (steps + 1) (some c :: gs) = readNumber false (some c :: gs) := by
  rw [readValue, skipGap_cons (isGap_of_isDigit h)]
  split
  case h_9 heq => cases heq; rw [if_pos h]
  all_goals
    next heq =>
    cases heq <;> exact absurd h (by decide)

theorem toList_toString_ofNat (n : Nat) : (toString (n : Int)).toList = Nat.toDigits 10 n :=
  Nat.toList_repr

theorem toList_toString_negSucc (n : Nat) :
    (toString (Int.negSucc n)).toList = '-' :: Nat.toDigits 10 (n + 1) := by
  have htext : toString (Int.negSucc n) = "-" ++ (n + 1).repr := rfl
  rw [htext, String.toList_append, Nat.toList_repr]
  rfl

theorem toDigits_eq_cons (n : Nat) :
    ∃ d ds, Nat.toDigits 10 n = d :: ds ∧ d.isDigit = true := by
  obtain ⟨d, ds, hds⟩ := List.exists_cons_of_ne_nil (Nat.toDigits_ne_nil (n := n) (b := 10))
  refine ⟨d, ds, hds, Nat.isDigit_of_mem_toDigits (b := 10) (n := n) (by decide) (by decide) ?_⟩
  rw [hds]
  exact List.mem_cons_self

/-- The text of a value starts with no blank and with no closing bracket. -/
theorem chars_eq_cons {j : Json} (h : Exact j) :
    ∃ c cs, chars j = c :: cs ∧ isGap (some c) = false ∧ c ≠ ']' := by
  match j with
  | .null => exact ⟨_, _, chars.eq_1, rfl, by decide⟩
  | .bool true => exact ⟨_, _, chars.eq_2, rfl, by decide⟩
  | .bool false => exact ⟨_, _, chars.eq_3, rfl, by decide⟩
  | .num (.int (.ofNat n)) =>
    obtain ⟨d, ds, hds, hd⟩ := toDigits_eq_cons n
    refine ⟨d, ds, by rw [chars, numberText, ← hds]; exact toList_toString_ofNat n,
      isGap_of_isDigit hd, ?_⟩
    rintro rfl
    exact absurd hd (by decide)
  | .num (.int (.negSucc n)) =>
    exact ⟨'-', _, by rw [chars, numberText]; exact toList_toString_negSucc n, rfl, by decide⟩
  | .num (.real x) => exact h.elim
  | .str s => exact ⟨'"', _, by rw [chars, quoted, List.cons_append], rfl, by decide⟩
  | .arr [] => exact ⟨_, _, chars.eq_6, rfl, by decide⟩
  | .arr (item :: items) =>
    exact ⟨'[', _, by rw [chars, List.cons_append, List.cons_append], rfl, by decide⟩
  | .obj [] => exact ⟨_, _, chars.eq_8, rfl, by decide⟩
  | .obj ((key, value) :: members) =>
    refine ⟨'{', quoted key ++ ':' :: chars value ++ membersChars members ++ ['}'], ?_, rfl,
      by decide⟩
    rw [chars]
    rfl

theorem length_chars_pos {j : Json} (h : Exact j) : 0 < (chars j).length := by
  obtain ⟨c, cs, hcs, -⟩ := chars_eq_cons h
  rw [hcs]
  exact Nat.succ_pos _

theorem skipGap_chars {j : Json} (h : Exact j) (rest : List Glyph) :
    skipGap ((chars j).map some ++ rest) = (chars j).map some ++ rest := by
  obtain ⟨c, cs, hcs, hgap, -⟩ := chars_eq_cons h
  rw [hcs, List.map_cons, List.cons_append, skipGap_cons hgap]

theorem readValue_int {i : Int} (h : Fits i) (steps : Nat) {rest : List Glyph}
    (hrest : EndsNumber rest) :
    readValue (steps + 1) ((chars (.num (.int i))).map some ++ rest) =
      (.number (.int i), some rest) := by
  rw [chars, numberText]
  cases i with
  | ofNat n =>
    obtain ⟨d, ds, hds, hd⟩ := toDigits_eq_cons n
    have hread := readNumber_ofNat h hrest
    have htext : (toString (Int.ofNat n)).toList = Nat.toDigits 10 n := toList_toString_ofNat n
    rw [hds, List.map_cons, List.cons_append] at hread
    rw [htext, hds, List.map_cons, List.cons_append, readValue_of_isDigit hd, hread]
    rfl
  | negSucc n =>
    rw [toList_toString_negSucc, List.map_cons, List.cons_append, readValue,
      skipGap_cons (by decide)]
    exact readNumber_negSucc h hrest

theorem readText_quoted (s : String) (rest : List Glyph) :
    readText ((escape s.toList ++ ['"']).map some ++ rest) = .done (.ok s) rest := by
  rw [List.map_append, List.append_assoc]
  exact readText_escape s rest

section
variable {steps : Nat} {gs rest rest' : List Glyph} {value : Scan}

theorem readItem_eq {items : Items} (hvalue : readValue steps gs = (value, some rest))
    (hitems : readItems steps false rest = (items, some rest')) :
    readItem (steps + 1) gs = (.cons value items, some rest') := by
  rw [readItem, hvalue]
  simp only [hitems]

theorem readItems_first {j : Json} (h : Exact j) :
    readItems (steps + 1) true ((chars j).map some ++ rest) =
      readItem steps ((chars j).map some ++ rest) := by
  rw [readItems, skipGap_chars h]
  obtain ⟨c, cs, hcs, -, hbracket⟩ := chars_eq_cons h
  rw [hcs, List.map_cons, List.cons_append]
  split
  · next heq => cases heq
  · next heq => cases heq; exact absurd rfl hbracket
  · next heq => cases heq; rfl

theorem readItems_next {j : Json} (h : Exact j) :
    readItems (steps + 1) false (some ',' :: ((chars j).map some ++ rest)) =
      readItem steps ((chars j).map some ++ rest) := by
  have hcomma : skipGap (some ',' :: ((chars j).map some ++ rest)) =
      some ',' :: ((chars j).map some ++ rest) := skipGap_cons rfl _
  rw [readItems, hcomma]
  split
  · next heq => cases heq
  · next heq => exact absurd (List.cons.inj heq).1 (by decide)
  · next g gs _ heq =>
    obtain ⟨rfl, rfl⟩ := List.cons.inj heq
    rw [if_neg Bool.false_ne_true, if_pos rfl, skipGap_chars h]
    obtain ⟨c, cs, hcs, -, hbracket⟩ := chars_eq_cons h
    rw [hcs, List.map_cons, List.cons_append]
    split
    · next heq => cases heq
    · next heq => cases heq; exact absurd rfl hbracket
    · rfl

theorem readMember_eq (key : String) {members : Members}
    (hvalue : readValue steps gs = (value, some rest))
    (hmembers : readMembers steps false rest = (members, some rest')) :
    readMember (steps + 1) ((escape key.toList ++ ['"']).map some ++ some ':' :: gs) =
      (.cons (.ok key) value members, some rest') := by
  rw [readMember, readText_quoted]
  have hcolon : skipGap (some ':' :: gs) = some ':' :: gs := skipGap_cons rfl gs
  simp only [hcolon, hvalue, hmembers]

theorem readMembers_first :
    readMembers (steps + 1) true (some '"' :: gs) = readMember steps gs := by
  have hquote : skipGap (some '"' :: gs) = some '"' :: gs := skipGap_cons rfl gs
  rw [readMembers, hquote]
  rfl

theorem readMembers_next :
    readMembers (steps + 1) false (some ',' :: some '"' :: gs) = readMember steps gs := by
  have hcomma : skipGap (some ',' :: some '"' :: gs) = some ',' :: some '"' :: gs :=
    skipGap_cons rfl _
  rw [readMembers, hcomma]
  rfl

end

theorem endsNumber_itemsChars (js : List Json) (rest : List Glyph) :
    EndsNumber ((itemsChars js).map some ++ some ']' :: rest) := by
  cases js with
  | nil => exact endsNumber_cons rfl (by decide) _
  | cons j js =>
    rw [itemsChars, List.cons_append]
    exact endsNumber_cons rfl (by decide) _

theorem endsNumber_membersChars (members : List (String × Json)) (rest : List Glyph) :
    EndsNumber ((membersChars members).map some ++ some '}' :: rest) := by
  cases members with
  | nil => exact endsNumber_cons rfl (by decide) _
  | cons member members =>
    obtain ⟨key, value⟩ := member
    rw [membersChars]
    exact endsNumber_cons rfl (by decide) _

theorem readValue_array {steps : Nat} {gs rest : List Glyph} {items : Items}
    (h : readItems steps true gs = (items, some rest)) :
    readValue (steps + 1) (some '[' :: gs) = (.array items, some rest) := by
  have hgap : skipGap (some '[' :: gs) = some '[' :: gs := skipGap_cons rfl gs
  rw [readValue, hgap]
  simp only [h]

theorem readValue_object {steps : Nat} {gs rest : List Glyph} {members : Members}
    (h : readMembers steps true gs = (members, some rest)) :
    readValue (steps + 1) (some '{' :: gs) = (.object members, some rest) := by
  have hgap : skipGap (some '{' :: gs) = some '{' :: gs := skipGap_cons rfl gs
  rw [readValue, hgap]
  simp only [h]

theorem readValue_text (s : String) (steps : Nat) (rest : List Glyph) :
    readValue (steps + 1) ((quoted s).map some ++ rest) = (.text s, some rest) := by
  have hgap (gs : List Glyph) : skipGap (some '"' :: gs) = some '"' :: gs := skipGap_cons rfl gs
  rw [quoted, List.cons_append, List.map_cons, List.cons_append, readValue, hgap]
  simp only [readText_quoted]

mutual

/-- **A value is read back from its text**, and what follows it is left. -/
theorem readValue_chars (j : Json) (h : Exact j) (steps : Nat)
    (hsteps : 3 * (chars j).length ≤ steps) {rest : List Glyph} (hrest : EndsNumber rest) :
    readValue steps ((chars j).map some ++ rest) = (Scan.asIs .closed j, some rest) := by
  have hpos := length_chars_pos h
  obtain ⟨steps, rfl⟩ : ∃ k, steps = k + 1 := ⟨steps - 1, by omega⟩
  match j with
  | .null => rw [chars]; rfl
  | .bool true => rw [chars]; rfl
  | .bool false => rw [chars]; rfl
  | .num (.int i) => exact readValue_int h steps hrest
  | .num (.real x) => exact h.elim
  | .str s => rw [chars]; exact readValue_text s steps rest
  | .arr [] =>
    rw [chars] at hsteps ⊢
    obtain ⟨steps, rfl⟩ : ∃ k, steps = k + 1 := ⟨steps - 1, by simp at hsteps; omega⟩
    exact readValue_array rfl
  | .arr (item :: items) =>
    rw [chars] at hsteps ⊢
    simp only [List.cons_append, List.length_cons, List.length_append, List.length_nil] at hsteps
    obtain ⟨steps, rfl⟩ : ∃ k, steps = k + 2 := ⟨steps - 2, by omega⟩
    have hitem := readValue_chars item h.1 steps (by omega) (endsNumber_itemsChars items rest)
    have hitems := readItems_itemsChars items h.2 steps (by omega) rest
    have hall := (readItems_first h.1).trans (readItem_eq hitem hitems)
    simpa [Scan.asIs, Items.asIs] using readValue_array hall
  | .obj [] =>
    rw [chars] at hsteps ⊢
    obtain ⟨steps, rfl⟩ : ∃ k, steps = k + 1 := ⟨steps - 1, by simp at hsteps; omega⟩
    exact readValue_object rfl
  | .obj ((key, value) :: members) =>
    rw [chars] at hsteps ⊢
    simp only [List.cons_append, List.length_cons, List.length_append, List.length_nil] at hsteps
    obtain ⟨steps, rfl⟩ : ∃ k, steps = k + 2 := ⟨steps - 2, by omega⟩
    have hvalue := readValue_chars value h.1 steps (by omega) (endsNumber_membersChars members rest)
    have hmembers := readMembers_membersChars members h.2 steps (by omega) rest
    have hall := readMembers_first.trans (readMember_eq key hvalue hmembers)
    simpa [Scan.asIs, Members.asIs, quoted] using readValue_object hall
termination_by structural j

/-- Items behind the first are read back. -/
theorem readItems_itemsChars (js : List Json) (h : ExactItems js) (steps : Nat)
    (hsteps : 3 * (itemsChars js).length + 1 ≤ steps) (rest : List Glyph) :
    readItems steps false ((itemsChars js).map some ++ some ']' :: rest) =
      (Items.asIs .closed js, some rest) := by
  match js with
  | [] =>
    obtain ⟨steps, rfl⟩ : ∃ k, steps = k + 1 := ⟨steps - 1, by omega⟩
    rfl
  | j :: js =>
    rw [itemsChars] at hsteps ⊢
    simp only [List.cons_append, List.length_cons, List.length_append] at hsteps
    obtain ⟨steps, rfl⟩ : ∃ k, steps = k + 2 := ⟨steps - 2, by omega⟩
    have hitem := readValue_chars j h.1 steps (by omega) (endsNumber_itemsChars js rest)
    have hitems := readItems_itemsChars js h.2 steps (by omega) rest
    have hall := (readItems_next h.1).trans (readItem_eq hitem hitems)
    simpa [Items.asIs] using hall
termination_by structural js

/-- Members behind the first are read back. -/
theorem readMembers_membersChars (members : List (String × Json)) (h : ExactMembers members)
    (steps : Nat) (hsteps : 3 * (membersChars members).length + 1 ≤ steps) (rest : List Glyph) :
    readMembers steps false ((membersChars members).map some ++ some '}' :: rest) =
      (Members.asIs .closed members, some rest) := by
  match members with
  | [] =>
    obtain ⟨steps, rfl⟩ : ∃ k, steps = k + 1 := ⟨steps - 1, by omega⟩
    rfl
  | (key, value) :: members =>
    rw [membersChars] at hsteps ⊢
    simp only [List.cons_append, List.length_cons, List.length_append] at hsteps
    obtain ⟨steps, rfl⟩ : ∃ k, steps = k + 2 := ⟨steps - 2, by omega⟩
    have hvalue := readValue_chars value h.1 steps (by omega) (endsNumber_membersChars members rest)
    have hmembers := readMembers_membersChars members h.2 steps (by omega) rest
    have hall := readMembers_next.trans (readMember_eq key hvalue hmembers)
    simpa [Members.asIs, quoted] using hall
termination_by structural members

end

/-! ## Whole texts -/

theorem ofGlyphs_chars {j : Json} (h : Exact j) :
    Document.ofGlyphs ((chars j).map some) = ⟨Scan.asIs .closed j, false⟩ := by
  have hrest : EndsNumber [] := by rintro c ⟨⟩
  have hread := readValue_chars j h (3 * ((chars j).map some).length + 3)
    (by rw [List.length_map]; omega) hrest
  rw [List.append_nil] at hread
  rw [Document.ofGlyphs, hread]
  rfl

theorem ofText_text {j : Json} (h : Exact j) :
    Document.ofText j.text = ⟨Scan.asIs .closed j, false⟩ := by
  rw [Document.ofText, glyphs, text, String.toList_ofList, ofGlyphs_chars h]

mutual

/-- The scan of a value as it stands has that value. -/
theorem toJson_asIs (j : Json) : (Scan.asIs .closed j).toJson = .ok j := by
  match j with
  | .null => rfl
  | .bool b => rfl
  | .num n => rfl
  | .str s => rfl
  | .arr items => rw [Scan.asIs, Scan.toJson, toList_itemsAsIs items]; rfl
  | .obj members => rw [Scan.asIs, Scan.toJson, toList_membersAsIs members]; rfl
termination_by structural j

theorem toList_itemsAsIs (js : List Json) : (Items.asIs .closed js).toList = .ok js := by
  match js with
  | [] => rfl
  | j :: js => rw [Items.asIs, Items.toList, toJson_asIs j, toList_itemsAsIs js]; rfl
termination_by structural js

theorem toList_membersAsIs (members : List (String × Json)) :
    (Members.asIs .closed members).toList = .ok members := by
  match members with
  | [] => rfl
  | (key, j) :: members =>
    rw [Members.asIs, Members.toList, toJson_asIs j, toList_membersAsIs members]
    rfl
termination_by structural members

end

/-- **JSON text can be read back.** The text of a value is parsed as that value. -/
theorem parse_text {j : Json} (h : Exact j) : parse j.text = .ok j := by
  rw [parse, ofText_text h]
  simp only [toJson_asIs]
  rfl

end NoteTools.Json
