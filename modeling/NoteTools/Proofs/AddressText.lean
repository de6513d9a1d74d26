import Mathlib.Data.Nat.Digits.Lemmas
import NoteTools.Access.SocketAddress
import NoteTools.Proofs.SpelledNumbers

/-!
# The texts of host addresses

An address of a host is read from exactly the texts of a grammar. It is written as four octets with
points between them, or as eight groups with colons between them, of which a double colon leaves out
some that are zero, and of which the last two may be written as octets.

Main definitions:

* `dotted`: the text of four octets;
* `SpellsGroup`, `SpellsGroups`: the texts of a group, and the words of several groups;
* `SpellsAll`, `SpellsBits`: the texts of eight groups, and of the address that they make.

Results:

* `readOctets?_eq_some_iff`, `readAllGroups?_eq_some_iff`: what is read as octets and as groups;
* `read_spellsBits`: what is read as an address;
* `exists_spellsBits`: every address has a text.
-/

namespace NoteTools.Access

open Numeric Text

/-! ## The grammar -/

/-- Four octets in decimal digits, with points between them. -/
def dotted (a b c d : UInt8) : List Char :=
  ['.'].intercalate ([a, b, c, d].map fun octet => Nat.toDigits 10 octet.toNat)

/-- A group has one to four hexadecimal digits. -/
def SpellsGroup (word : List Char) (g : Nat) : Prop :=
  word.length ≤ 4 ∧ Spells 16 word g

/-- Words that spell groups. The last word may be four octets, which make two groups. -/
inductive SpellsGroups : List (List Char) → List Nat → Prop where
  /-- No words. -/
  | nil : SpellsGroups [] []
  /-- Four octets as the last word. -/
  | octets (a b c d : UInt8) : SpellsGroups [dotted a b c d] (octetGroups a b c d)
  /-- A group, and more words. -/
  | cons {word : List Char} {g : Nat} {words : List (List Char)} {gs : List Nat} :
    SpellsGroup word g → SpellsGroups words gs → SpellsGroups (word :: words) (g :: gs)

/-- A text that spells eight groups. -/
inductive SpellsAll : List Char → List Nat → Prop where
  /-- All groups, with colons between them. -/
  | full {words : List (List Char)} {gs : List Nat} : SpellsGroups words gs → gs.length = 8 →
    SpellsAll ([':'].intercalate words) gs
  /-- Groups in front of a double colon and behind it, which stands for at least one zero. -/
  | gap {front back : List (List Char)} {fs bs : List Nat} : List.Forall₂ SpellsGroup front fs →
    SpellsGroups back bs → fs.length + bs.length < 8 →
    SpellsAll ([':'].intercalate front ++ ':' :: ':' :: [':'].intercalate back)
      (fs ++ List.replicate (8 - (fs.length + bs.length)) 0 ++ bs)

/-- A text that spells an address of 128 bits: its groups, the first one being the most
significant. -/
def SpellsBits (text : List Char) (bits : BitVec 128) : Prop :=
  ∃ gs, SpellsAll text gs ∧ bits.toNat = Nat.ofDigits (2 ^ 16) gs.reverse

/-! ## Words -/

section
variable {mark : Char}

theorem intercalate_splitOn (mark : Char) (cs : List Char) :
    [mark].intercalate (splitOn (· == mark) cs) = cs := by
  induction cs with
  | nil => rfl
  | cons c cs ih =>
    obtain ⟨piece, pieces, hpieces⟩ := List.exists_cons_of_ne_nil (splitOn_ne_nil (· == mark) cs)
    rw [hpieces] at ih
    by_cases hc : c = mark
    · simp [splitOn, hc, hpieces, ih]
    · cases pieces with
      | nil =>
        rw [List.intercalate_singleton] at ih
        simp [splitOn, hc, hpieces, ih]
      | cons next pieces =>
        simp only [splitOn, beq_iff_eq, hc, if_false, hpieces]
        rw [List.intercalate_cons_cons] at ih ⊢
        rw [List.cons_append, List.cons_append, ih]

theorem forall_beq_eq_false {cs : List Char} (h : mark ∉ cs) : ∀ c ∈ cs, (c == mark) = false := by
  intro c hc
  rw [beq_eq_false_iff_ne]
  exact fun heq => h (heq ▸ hc)

theorem of_mem_intercalate {ws : List (List Char)} {c : Char}
    (h : c ∈ [mark].intercalate ws) : c = mark ∨ ∃ w ∈ ws, c ∈ w := by
  induction ws with
  | nil => cases h
  | cons w ws ih =>
    cases ws with
    | nil =>
      rw [List.intercalate_singleton] at h
      exact .inr ⟨w, List.mem_cons_self, h⟩
    | cons next ws =>
      rw [List.intercalate_cons_cons, List.mem_append, List.mem_append, List.mem_singleton] at h
      obtain (h | rfl) | h := h
      · exact .inr ⟨w, List.mem_cons_self, h⟩
      · exact .inl rfl
      · obtain rfl | ⟨v, hv, hc⟩ := ih h
        · exact .inl rfl
        · exact .inr ⟨v, List.mem_cons_of_mem w hv, hc⟩

theorem splitOn_intercalate {ws : List (List Char)} (hne : ws ≠ []) (h : ∀ w ∈ ws, mark ∉ w) :
    splitOn (· == mark) ([mark].intercalate ws) = ws := by
  induction ws with
  | nil => exact absurd rfl hne
  | cons w ws ih =>
    obtain ⟨hw, hws⟩ := List.forall_mem_cons.mp h
    cases ws with
    | nil => rw [List.intercalate_singleton, splitOn_eq_singleton (forall_beq_eq_false hw)]
    | cons next ws =>
      rw [List.intercalate_cons_cons, List.append_assoc, List.singleton_append,
        splitOn_append_cons (forall_beq_eq_false hw) (beq_self_eq_true mark), ih (by simp) hws]

end

/-! ## Octets -/

theorem not_mem_toDigits {n : Nat} {c : Char} (hc : c.isDigit = false) : c ∉ Nat.toDigits 10 n := by
  intro hmem
  have hdigit := Nat.isDigit_of_mem_toDigits (by decide) (by decide) hmem
  rw [hc] at hdigit
  cases hdigit

theorem length_toDigits_octet (b : UInt8) : (Nat.toDigits 10 b.toNat).length ≤ 3 := by
  rw [Nat.length_toDigits_le_iff (by decide) (by decide)]
  exact Nat.lt_trans b.toNat_lt (by decide)

/-- A number is written without zeros in front. -/
theorem length_toDigits_or_head? (n : Nat) :
    (Nat.toDigits 10 n).length = 1 ∨ (Nat.toDigits 10 n).head? ≠ some '0' := by
  obtain rfl | hpos := Nat.eq_zero_or_pos n
  · exact .inl rfl
  · exact .inr (head?_toDigits hpos)

/-- An octet is read from its digits, and from nothing else. -/
theorem readOctet?_eq_some_iff {cs : List Char} {b : UInt8} :
    readOctet? cs = some b ↔ cs = Nat.toDigits 10 b.toNat := by
  rw [readOctet?, Option.bind_eq_bind, Option.bind_eq_some_iff]
  constructor
  · rintro ⟨n, hn, hread⟩
    split at hread
    · next hform =>
      obtain ⟨-, hzero, hlt⟩ := hform
      obtain rfl : UInt8.ofNat n = b := Option.some.inj hread
      rw [UInt8.toNat_ofNat_of_lt' hlt]
      rw [readDecimal?_eq_some_iff, spells_ten_iff] at hn
      obtain ⟨zeros, rfl⟩ := hn
      cases zeros with
      | zero => rfl
      | succ zeros =>
        obtain hlength | hhead := hzero
        · have hpos := List.length_pos_of_ne_nil (Nat.toDigits_ne_nil (n := n) (b := 10))
          rw [List.length_append, List.length_replicate] at hlength
          omega
        · exact absurd rfl hhead
    · cases hread
  · rintro rfl
    refine ⟨b.toNat, ?_, ?_⟩
    · exact readDecimal?_eq_some_iff.mpr (spells_toDigits (by decide) (by decide) b.toNat)
    · rw [if_pos ⟨length_toDigits_octet b, length_toDigits_or_head? b.toNat, b.toNat_lt⟩]
      exact congrArg some UInt8.ofNat_toNat

/-- Four octets are read from their text, and from nothing else. -/
theorem readOctets?_eq_some_iff {cs : List Char} {a b c d : UInt8} :
    readOctets? cs = some (a, b, c, d) ↔ cs = dotted a b c d := by
  rw [readOctets?]
  constructor
  · intro h
    split at h
    · next w x y z hsplit =>
      simp only [Option.bind_eq_bind, Option.bind_eq_some_iff, Option.pure_def, Option.some_inj,
        Prod.mk.injEq, readOctet?_eq_some_iff] at h
      obtain ⟨_, rfl, _, rfl, _, rfl, _, rfl, rfl, rfl, rfl, rfl⟩ := h
      rw [← intercalate_splitOn '.' cs, hsplit]
      rfl
    · cases h
  · rintro rfl
    have hpoint {n : Nat} : '.' ∉ Nat.toDigits 10 n := not_mem_toDigits (by decide)
    have hsplit : splitOn (· == '.') (dotted a b c d) =
        [a, b, c, d].map fun octet => Nat.toDigits 10 octet.toNat :=
      splitOn_intercalate (by simp) (by simp [hpoint])
    rw [hsplit]
    simp [readOctet?_eq_some_iff.mpr rfl]

/-! ## Groups -/

theorem readGroup?_eq_some_iff {word : List Char} {g : Nat} :
    readGroup? word = some g ↔ SpellsGroup word g := by
  rw [readGroup?, SpellsGroup, Option.ite_none_right_eq_some,
    readDigits?_eq_some_iff (by decide) (by decide)]

/-- What the words between colons are made of. -/
def IsWord (word : List Char) : Prop :=
  word ≠ [] ∧ ∀ c ∈ word, c ∈ hexChars ∨ c = '.'

theorem SpellsGroup.isWord {word : List Char} {g : Nat} (h : SpellsGroup word g) : IsWord word :=
  ⟨h.2.ne_nil, fun c hc => .inl (h.2.mem_hexChars (by decide) (by decide) c hc)⟩

theorem SpellsGroup.lt {word : List Char} {g : Nat} (h : SpellsGroup word g) : g < 2 ^ 16 := by
  obtain ⟨hlength, zeros, hzeros⟩ := h
  have hdigits : (Nat.toDigits 16 g).length ≤ 4 := by
    have hsum := congrArg List.length hzeros
    rw [List.length_map, List.length_append] at hsum
    omega
  exact (Nat.length_toDigits_le_iff (b := 16) (k := 4) (by decide) (by decide)).mp hdigits

/-- A text of octets has digits and points. -/
theorem of_mem_dotted {a b c d : UInt8} {e : Char} (h : e ∈ dotted a b c d) :
    e.isDigit = true ∨ e = '.' := by
  obtain rfl | ⟨word, hword, he⟩ := of_mem_intercalate h
  · exact .inr rfl
  · obtain ⟨octet, -, rfl⟩ := List.mem_map.mp hword
    exact .inl (Nat.isDigit_of_mem_toDigits (by decide) (by decide) he)

theorem dotted_eq (a b c d : UInt8) : dotted a b c d =
    Nat.toDigits 10 a.toNat ++ '.' :: (Nat.toDigits 10 b.toNat ++ '.' ::
      (Nat.toDigits 10 c.toNat ++ '.' :: Nat.toDigits 10 d.toNat)) := by
  simp [dotted, List.intercalate_cons_cons, List.intercalate_singleton]

theorem isWord_dotted (a b c d : UInt8) : IsWord (dotted a b c d) :=
  ⟨by simp [dotted_eq], fun _ he => (of_mem_dotted he).imp_left mem_hexChars_of_isDigit⟩

theorem SpellsGroups.isWord {words : List (List Char)} {gs : List Nat} (h : SpellsGroups words gs) :
    ∀ word ∈ words, IsWord word := by
  induction h with
  | nil => simp
  | octets a b c d => simpa using isWord_dotted a b c d
  | cons hword _ ih => exact List.forall_mem_cons.mpr ⟨hword.isWord, ih⟩

theorem SpellsGroups.lt {words : List (List Char)} {gs : List Nat} (h : SpellsGroups words gs) :
    ∀ g ∈ gs, g < 2 ^ 16 := by
  induction h with
  | nil => simp
  | octets a b c d =>
    have hgroup (x y : UInt8) : x.toNat * 256 + y.toNat < 2 ^ 16 := by
      have hx := x.toNat_lt
      have hy := y.toNat_lt
      omega
    rw [octetGroups, List.forall_mem_cons, List.forall_mem_singleton]
    exact ⟨hgroup a b, hgroup c d⟩
  | cons hword _ ih => exact List.forall_mem_cons.mpr ⟨hword.lt, ih⟩

/-- Plain groups are words whose last one is not made of octets. -/
theorem spellsGroups_of_forall₂ {words : List (List Char)} {gs : List Nat}
    (h : List.Forall₂ SpellsGroup words gs) : SpellsGroups words gs := by
  induction h with
  | nil => exact .nil
  | cons hword _ ih => exact .cons hword ih

theorem mapM_readGroup?_eq_some_iff {words : List (List Char)} {gs : List Nat} :
    words.mapM readGroup? = some gs ↔ List.Forall₂ SpellsGroup words gs := by
  induction words generalizing gs with
  | nil => simp [eq_comm]
  | cons word words ih =>
    simp only [List.mapM_cons, Option.bind_eq_bind, Option.bind_eq_some_iff, Option.pure_def,
      Option.some_inj, readGroup?_eq_some_iff, ih, List.forall₂_cons_left_iff]
    constructor
    · rintro ⟨g, hg, gs, hgs, rfl⟩
      exact ⟨g, gs, hg, hgs, rfl⟩
    · rintro ⟨g, gs, hg, hgs, rfl⟩
      exact ⟨g, hg, gs, hgs, rfl⟩

/-- Groups are read from the words that spell them, and from nothing else. -/
theorem readGroups?_eq_some_iff {words : List (List Char)} {gs : List Nat} :
    readGroups? words = some gs ↔ SpellsGroups words gs := by
  constructor
  · intro h
    induction words generalizing gs with
    | nil =>
      cases h
      exact .nil
    | cons word words ih =>
      cases words with
      | nil =>
        simp only [readGroups?, Option.or_eq_some_iff, Option.map_eq_some_iff] at h
        obtain ⟨g, hg, rfl⟩ | ⟨-, ⟨a, b, c, d⟩, hoctets, rfl⟩ := h
        · exact .cons (readGroup?_eq_some_iff.mp hg) .nil
        · obtain rfl := readOctets?_eq_some_iff.mp hoctets
          exact .octets a b c d
      | cons next words =>
        simp only [readGroups?, Option.bind_eq_bind, Option.bind_eq_some_iff, Option.pure_def,
          Option.some_inj] at h
        obtain ⟨g, hg, gs, hgs, rfl⟩ := h
        exact .cons (readGroup?_eq_some_iff.mp hg) (ih hgs)
  · intro h
    induction h with
    | nil => rfl
    | octets a b c d =>
      have hgroup : readGroup? (dotted a b c d) = none := by
        rw [Option.eq_none_iff_forall_ne_some]
        intro g hg
        have hhex := (readGroup?_eq_some_iff.mp hg).2.mem_hexChars (by decide) (by decide)
        exact absurd (hhex '.' (by simp [dotted_eq])) (by decide)
      rw [readGroups?, hgroup, readOctets?_eq_some_iff.mpr rfl]
      rfl
    | @cons word g words gs hword hwords ih =>
      cases words with
      | nil =>
        cases hwords
        rw [readGroups?, readGroup?_eq_some_iff.mpr hword]
        rfl
      | cons next words =>
        rw [readGroups?, readGroup?_eq_some_iff.mpr hword, ih]
        · rfl
        · simp

/-! ## Colons -/

theorem IsWord.not_mem {word : List Char} (h : IsWord word) {mark : Char} (hhex : mark ∉ hexChars)
    (hpoint : mark ≠ '.') : mark ∉ word :=
  fun hmem => (h.2 mark hmem).elim hhex hpoint

theorem intercalate_words (cs : List Char) : [':'].intercalate (words cs) = cs := by
  rw [words]
  split
  · next hempty => simpa using hempty
  · exact intercalate_splitOn ':' cs

theorem words_intercalate {ws : List (List Char)} (h : ∀ word ∈ ws, IsWord word) :
    words ([':'].intercalate ws) = ws := by
  cases ws with
  | nil => rfl
  | cons word ws =>
    have hne : [':'].intercalate (word :: ws) ≠ [] := by
      have hword := (h word List.mem_cons_self).1
      cases ws <;> simp [List.intercalate_cons_cons, List.intercalate_singleton, hword]
    rw [words, if_neg (by simpa using hne)]
    refine splitOn_intercalate (by simp) fun word hmem => ?_
    exact (h word hmem).not_mem (by decide) (by decide)

/-- There is a double colon where one is found, and it is the first one. -/
theorem eq_of_splitAtGap? {cs front back : List Char} (h : splitAtGap? cs = some (front, back)) :
    cs = front ++ ':' :: ':' :: back := by
  induction cs using splitAtGap?.induct generalizing front with
  | case1 => cases h
  | case2 rest =>
    obtain ⟨rfl, rfl⟩ := Prod.mk.inj (Option.some.inj h)
    rfl
  | case3 c cs hgap ih =>
    rw [splitAtGap?, Option.map_eq_some_iff] at h
    · obtain ⟨⟨front, rest⟩, hcs, heq⟩ := h
      obtain ⟨rfl, rfl⟩ := Prod.mk.inj heq
      rw [ih hcs, List.cons_append]
    · exact hgap

theorem splitAtGap?_append {front : List Char} (h : ':' ∉ front) (cs : List Char) :
    splitAtGap? (front ++ cs) = (splitAtGap? cs).map fun (f, b) => (front ++ f, b) := by
  induction front with
  | nil => simp
  | cons c front ih =>
    rw [List.mem_cons, not_or] at h
    rw [List.cons_append, splitAtGap?, ih h.2, Option.map_map]
    · rfl
    · rintro rest rfl
      exact absurd rfl h.1

theorem splitAtGap?_colon {cs : List Char} (h : cs.head? ≠ some ':') :
    splitAtGap? (':' :: cs) = (splitAtGap? cs).map fun (f, b) => (':' :: f, b) := by
  rw [splitAtGap?]
  rintro rest - rfl
  exact h rfl

theorem head?_intercalate_append {word : List Char} {ws : List (List Char)} (h : word ≠ [])
    (cs : List Char) : ([':'].intercalate (word :: ws) ++ cs).head? = word.head? := by
  obtain ⟨c, rest, rfl⟩ := List.exists_cons_of_ne_nil h
  cases ws <;> simp [List.intercalate_cons_cons, List.intercalate_singleton]

/-- Words are followed by single colons only. -/
theorem splitAtGap?_intercalate {ws : List (List Char)} (h : ∀ word ∈ ws, IsWord word)
    (cs : List Char) : splitAtGap? ([':'].intercalate ws ++ cs) =
      (splitAtGap? cs).map fun (f, b) => ([':'].intercalate ws ++ f, b) := by
  induction ws with
  | nil => simp
  | cons word ws ih =>
    obtain ⟨hword, hws⟩ := List.forall_mem_cons.mp h
    have hcolon : ':' ∉ word := hword.not_mem (by decide) (by decide)
    cases ws with
    | nil => rw [List.intercalate_singleton, splitAtGap?_append hcolon]
    | cons next ws =>
      have hnext := hws next List.mem_cons_self
      have hhead : ([':'].intercalate (next :: ws) ++ cs).head? ≠ some ':' := by
        rw [head?_intercalate_append hnext.1]
        intro hhead
        exact hnext.not_mem (by decide) (by decide) (List.mem_of_mem_head? hhead)
      rw [List.intercalate_cons_cons, List.append_assoc, List.append_assoc, List.singleton_append,
        splitAtGap?_append hcolon, splitAtGap?_colon hhead, ih hws, Option.map_map, Option.map_map]
      simp [Function.comp_def]

/-- Eight groups are read from the texts that spell them, and from nothing else. -/
theorem readAllGroups?_eq_some_iff {cs : List Char} {gs : List Nat} :
    readAllGroups? cs = some gs ↔ SpellsAll cs gs := by
  constructor
  · intro h
    rw [readAllGroups?] at h
    split at h
    · obtain ⟨hread, hlength⟩ := Option.filter_eq_some_iff.mp h
      rw [← intercalate_words cs]
      exact .full (readGroups?_eq_some_iff.mp hread) (of_decide_eq_true hlength)
    · next front back hgap =>
      simp only [Option.bind_eq_bind, Option.bind_eq_some_iff, mapM_readGroup?_eq_some_iff,
        readGroups?_eq_some_iff] at h
      obtain ⟨fs, hfs, bs, hbs, hmissing⟩ := h
      split at hmissing
      · cases hmissing
      · next hpos =>
        obtain rfl := Option.some.inj hmissing
        rw [eq_of_splitAtGap? hgap, ← intercalate_words front, ← intercalate_words back]
        exact .gap hfs hbs (by omega)
  · rintro (⟨hgroups, hlength⟩ | ⟨hfs, hbs, hlt⟩)
    · have hgap := splitAtGap?_intercalate hgroups.isWord []
      rw [List.append_nil] at hgap
      rw [readAllGroups?, hgap, words_intercalate hgroups.isWord,
        readGroups?_eq_some_iff.mpr hgroups]
      exact Option.filter_some_pos (decide_eq_true hlength)
    · have hwords := (spellsGroups_of_forall₂ hfs).isWord
      rw [readAllGroups?, splitAtGap?_intercalate hwords, splitAtGap?, Option.map_some]
      dsimp only
      rw [List.append_nil, words_intercalate hwords, words_intercalate hbs.isWord,
        mapM_readGroup?_eq_some_iff.mpr hfs, readGroups?_eq_some_iff.mpr hbs]
      exact if_neg (by omega)

/-! ## Addresses -/

theorem SpellsAll.length {text : List Char} {gs : List Nat} (h : SpellsAll text gs) :
    gs.length = 8 := by
  obtain ⟨-, hlength⟩ | ⟨-, -, hlt⟩ := h
  · exact hlength
  · simp only [List.length_append, List.length_replicate]
    omega

theorem SpellsAll.lt {text : List Char} {gs : List Nat} (h : SpellsAll text gs) :
    ∀ g ∈ gs, g < 2 ^ 16 := by
  obtain ⟨hgroups, -⟩ | ⟨hfs, hbs, -⟩ := h
  · exact hgroups.lt
  · simp only [List.forall_mem_append]
    refine ⟨⟨(spellsGroups_of_forall₂ hfs).lt, fun g hg => ?_⟩, hbs.lt⟩
    rw [List.eq_of_mem_replicate hg]
    decide

/-- The number that groups make. -/
theorem ofGroups_eq_iff {gs : List Nat} (hlength : gs.length = 8) (hlt : ∀ g ∈ gs, g < 2 ^ 16)
    {bits : BitVec 128} : ofGroups gs = bits ↔ bits.toNat = Nat.ofDigits (2 ^ 16) gs.reverse := by
  have hfold : gs.foldl (fun n g => n * UInt16.size + g) 0 = Nat.ofDigits (2 ^ 16) gs.reverse := by
    rw [Nat.ofDigits_eq_foldr, List.foldr_reverse]
    congr 1
    funext n g
    rw [Nat.add_comm, Nat.mul_comm]
    rfl
  have hbound : Nat.ofDigits (2 ^ 16) gs.reverse < 2 ^ 128 := by
    have hbound := Nat.ofDigits_lt_base_pow_length (b := 2 ^ 16) (l := gs.reverse) (by decide)
      (by simpa using hlt)
    rw [List.length_reverse, hlength] at hbound
    exact Nat.lt_of_lt_of_eq hbound (by decide)
  rw [ofGroups, hfold, ← BitVec.toNat_inj, BitVec.toNat_ofNat, Nat.mod_eq_of_lt hbound, eq_comm]

/-- The address that a text spells is read from it, and from nothing else. -/
theorem read_spellsBits {text : List Char} {bits : BitVec 128} :
    (readAllGroups? text).map ofGroups = some bits ↔ SpellsBits text bits := by
  rw [Option.map_eq_some_iff]
  constructor
  · rintro ⟨gs, hgs, hbits⟩
    have hall := readAllGroups?_eq_some_iff.mp hgs
    exact ⟨gs, hall, (ofGroups_eq_iff hall.length hall.lt).mp hbits⟩
  · rintro ⟨gs, hall, hbits⟩
    exact ⟨gs, readAllGroups?_eq_some_iff.mpr hall, (ofGroups_eq_iff hall.length hall.lt).mpr hbits⟩

/-- Every address has a text. -/
theorem exists_spellsBits (bits : BitVec 128) : ∃ text, SpellsBits text bits := by
  let gs := Nat.digitsAppend (2 ^ 16) 8 bits.toNat
  have hbits : bits.toNat < (2 ^ 16) ^ 8 := Nat.lt_of_lt_of_eq bits.isLt (by decide)
  have hlength : gs.length = 8 := Nat.length_digitsAppend (by decide) 8 hbits
  have hgroup : ∀ g ∈ gs, SpellsGroup (Nat.toDigits 16 g) g := by
    intro g hg
    have hlt : g < 16 ^ 4 := Nat.lt_of_mem_digitsAppend (by decide) 8 g hg
    exact ⟨(Nat.length_toDigits_le_iff (by decide) (by decide)).mpr hlt,
      spells_toDigits (by decide) (by decide) g⟩
  have hspells : List.Forall₂ SpellsGroup (gs.reverse.map (Nat.toDigits 16)) gs.reverse := by
    rw [List.forall₂_map_left_iff, List.forall₂_same]
    exact fun g hg => hgroup g (List.mem_reverse.mp hg)
  have hlength' : gs.reverse.length = 8 := by rw [List.length_reverse, hlength]
  refine ⟨_, gs.reverse, .full (spellsGroups_of_forall₂ hspells) hlength', ?_⟩
  rw [List.reverse_reverse]
  exact ((Nat.setInvOn_digitsAppend_ofDigits (by decide) 8).2 hbits).symm

/-! ## Characters -/

theorem SpellsGroups.mem_intercalate {words : List (List Char)} {gs : List Nat}
    (h : SpellsGroups words gs) {c : Char} (hc : c ∈ [':'].intercalate words) :
    c ∈ hexChars ∨ c = '.' ∨ c = ':' := by
  obtain rfl | ⟨word, hword, hmem⟩ := of_mem_intercalate hc
  · exact .inr (.inr rfl)
  · exact ((h.isWord word hword).2 c hmem).imp_right .inl

/-- The characters of the text of an address. -/
theorem SpellsBits.of_mem {text : List Char} {bits : BitVec 128} (h : SpellsBits text bits)
    {c : Char} (hc : c ∈ text) : c ∈ hexChars ∨ c = '.' ∨ c = ':' := by
  obtain ⟨gs, ⟨hgroups, -⟩ | ⟨hfs, hbs, -⟩, -⟩ := h
  · exact hgroups.mem_intercalate hc
  · rw [List.mem_append, List.mem_cons, List.mem_cons] at hc
    obtain hc | rfl | rfl | hc := hc
    · exact (spellsGroups_of_forall₂ hfs).mem_intercalate hc
    · exact .inr (.inr rfl)
    · exact .inr (.inr rfl)
    · exact hbs.mem_intercalate hc

theorem SpellsBits.not_mem {text : List Char} {bits : BitVec 128} (h : SpellsBits text bits)
    {mark : Char} (hhex : mark ∉ hexChars) (hpoint : mark ≠ '.') (hcolon : mark ≠ ':') :
    mark ∉ text := by
  intro hmem
  obtain hmem | hmem | hmem := h.of_mem hmem
  · exact hhex hmem
  · exact hpoint hmem
  · exact hcolon hmem

end NoteTools.Access
