import Mathlib.Data.List.Induction
import NoteTools.Numeric.Digits
import NoteTools.Proofs.TrimmedText

/-!
# Numbers as they are spelled

The reader of digits accepts a number in the digits of a radix up to sixteen, whatever the case of
the letters, and with any zeros in front, and it accepts nothing else.

Main definitions:

* `Spells`: a list of characters spells a number;
* `hexChars`: the digits of the radix sixteen.

Results:

* `digit?_eq_some_iff`: a digit and its value;
* `readDigits?_eq_some_iff`: exactly the spellings of a number are read as the number;
* `spells_ten_iff`: decimal spellings.
-/

namespace NoteTools.Numeric

open Text

/-- A list of characters spells a number: its digits, whatever the case of the letters, with any
zeros in front. -/
def Spells (radix : Nat) (cs : List Char) (n : Nat) : Prop :=
  ∃ zeros, cs.map Char.toLower = List.replicate zeros '0' ++ Nat.toDigits radix n

/-- The digits of the radix sixteen, with letters of both cases. -/
def hexChars : List Char :=
  "0123456789abcdefABCDEF".toList

/-! ## Digits -/

theorem toNat_lt_of_isDigit {c : Char} (h : c.isDigit = true) : c.toNat < 0x80 := by
  simp only [Char.isDigit, Bool.and_eq_true, decide_eq_true_eq] at h
  exact Nat.lt_of_le_of_lt (UInt32.le_iff_toNat_le.mp h.2) (by decide)

/-- Digits of any radix are ASCII characters. -/
theorem toNat_lt_of_digit? {radix : Nat} {c : Char} {d : Nat} (h : digit? radix c = some d) :
    c.toNat < 0x80 := by
  by_contra hlarge
  have hafter (last : Char) (hlast : last.toNat < 0x80) : ¬c ≤ last := fun hle =>
    hlarge (Nat.lt_of_le_of_lt (UInt32.le_iff_toNat_le.mp hle) hlast)
  have hdigit : ¬c.isDigit = true := fun hdigit => hlarge (toNat_lt_of_isDigit hdigit)
  simp [digit?, hdigit, hafter 'f' (by decide), hafter 'F' (by decide)] at h

/-- A digit of a radix is a digit of the largest radix with a value below the other one. -/
theorem digit?_eq_some_iff_sixteen {radix : Nat} (h : radix ≤ 16) {c : Char} {d : Nat} :
    digit? radix c = some d ↔ d < radix ∧ digit? 16 c = some d := by
  unfold digit?
  grind

/-- A digit and its value. -/
theorem digit?_eq_some_iff {radix : Nat} (h : radix ≤ 16) {c : Char} {d : Nat} :
    digit? radix c = some d ↔ d < radix ∧ c.toLower = Nat.digitChar d := by
  have hascii : ∀ d < 16, (Nat.digitChar d).toNat < 0x80 := by decide
  rw [digit?_eq_some_iff_sixteen h, and_congr_right_iff]
  intro hd
  have hall {c : Char} (hc : c.toNat < 0x80) :
      ∀ d < 16, digit? 16 c = some d ↔ c.toLower = Nat.digitChar d :=
    forall_ascii (P := fun c => ∀ d < 16, digit? 16 c = some d ↔ c.toLower = Nat.digitChar d)
      (by decide +kernel) hc
  constructor
  · intro hdigit
    exact (hall (toNat_lt_of_digit? hdigit) d (Nat.lt_of_lt_of_le hd h)).mp hdigit
  · intro hlower
    have hc : c.toNat < 0x80 := by
      by_contra hlarge
      rw [toLower_of_not_lt hlarge] at hlower
      exact hlarge (hlower ▸ hascii d (Nat.lt_of_lt_of_le hd h))
    exact (hall hc d (Nat.lt_of_lt_of_le hd h)).mpr hlower

theorem mem_hexChars_of_digit? {radix : Nat} (h : radix ≤ 16) {c : Char} {d : Nat}
    (hdigit : digit? radix c = some d) : c ∈ hexChars := by
  have hall : (digit? 16 c).isSome = true → c ∈ hexChars :=
    forall_ascii (P := fun c => (digit? 16 c).isSome = true → c ∈ hexChars) (by decide +kernel)
      (toNat_lt_of_digit? hdigit)
  exact hall (Option.isSome_of_eq_some ((digit?_eq_some_iff_sixteen h).mp hdigit).2)

theorem isDigit_of_digit? {c : Char} {d : Nat} (hdigit : digit? 10 c = some d) :
    c.isDigit = true := by
  have hall : (digit? 10 c).isSome = true → c.isDigit = true :=
    forall_ascii (P := fun c => (digit? 10 c).isSome = true → c.isDigit = true) (by decide +kernel)
      (toNat_lt_of_digit? hdigit)
  exact hall (Option.isSome_of_eq_some hdigit)

theorem mem_hexChars_of_isDigit {c : Char} (h : c.isDigit = true) : c ∈ hexChars :=
  forall_ascii (P := fun c => c.isDigit = true → c ∈ hexChars) (by decide +kernel)
    (toNat_lt_of_isDigit h) h

theorem toLower_of_isDigit {c : Char} (h : c.isDigit = true) : c.toLower = c :=
  forall_ascii (P := fun c => c.isDigit = true → c.toLower = c) (by decide +kernel)
    (toNat_lt_of_isDigit h) h

/-! ## Lists of digits -/

section
variable {radix : Nat}

/-- Reads a digit behind a number. -/
def pushDigit? (radix n : Nat) (c : Char) : Option Nat :=
  (digit? radix c).map (n * radix + ·)

theorem pushDigit?_eq_some_iff (h : radix ≤ 16) {m n : Nat} {c : Char} :
    pushDigit? radix m c = some n ↔
      ∃ d < radix, c.toLower = Nat.digitChar d ∧ m * radix + d = n := by
  simp [pushDigit?, digit?_eq_some_iff h, and_assoc]

theorem foldlM_append_singleton (cs : List Char) (c : Char) (n : Nat) :
    (cs ++ [c]).foldlM (pushDigit? radix) n =
      (cs.foldlM (pushDigit? radix) n).bind fun m => pushDigit? radix m c := by
  simp [List.foldlM_append]

/-- The digits of a number and one digit more. -/
theorem spells_append_singleton (hradix : 2 ≤ radix) {cs : List Char} {m d : Nat} {c : Char}
    (hm : Spells radix cs m) (hd : d < radix) (hc : c.toLower = Nat.digitChar d) :
    Spells radix (cs ++ [c]) (m * radix + d) := by
  obtain ⟨zeros, hzeros⟩ := hm
  rw [Spells, List.map_append, hzeros, List.map_singleton, hc, ← Nat.toDigits_of_lt_base hd]
  obtain rfl | hpos := Nat.eq_zero_or_pos m
  · refine ⟨zeros + 1, ?_⟩
    rw [Nat.toDigits_zero, Nat.zero_mul, Nat.zero_add, List.replicate_succ']
  · refine ⟨zeros, ?_⟩
    rw [List.append_assoc, Nat.toDigits_append_toDigits (by omega) hpos hd, Nat.mul_comm]

theorem readDigits?_eq (cs : List Char) :
    readDigits? radix cs = if cs.isEmpty then none else cs.foldlM (pushDigit? radix) 0 := rfl

/-- What is read is spelled. -/
theorem spells_of_foldlM (hradix : 2 ≤ radix) (hsmall : radix ≤ 16) {cs : List Char} {n : Nat}
    (hne : cs ≠ []) (h : cs.foldlM (pushDigit? radix) 0 = some n) : Spells radix cs n := by
  induction cs using List.reverseRecOn generalizing n with
  | nil => exact absurd rfl hne
  | append_singleton cs c ih =>
    rw [foldlM_append_singleton, Option.bind_eq_some_iff] at h
    obtain ⟨m, hm, hlast⟩ := h
    obtain ⟨d, hd, hc, rfl⟩ := (pushDigit?_eq_some_iff hsmall).mp hlast
    by_cases hcs : cs = []
    · subst hcs
      obtain rfl : 0 = m := Option.some.inj hm
      refine ⟨0, ?_⟩
      rw [Nat.zero_mul, Nat.zero_add, Nat.toDigits_of_lt_base hd]
      simp [hc]
    · exact spells_append_singleton hradix (ih hcs hm) hd hc

/-- Only the digits in small letters matter. -/
theorem foldlM_map_toLower (hsmall : radix ≤ 16) (cs : List Char) (n : Nat) :
    (cs.map Char.toLower).foldlM (pushDigit? radix) n = cs.foldlM (pushDigit? radix) n := by
  have hpush (m : Nat) (c : Char) : pushDigit? radix m c.toLower = pushDigit? radix m c := by
    apply Option.ext
    intro k
    rw [pushDigit?_eq_some_iff hsmall, pushDigit?_eq_some_iff hsmall,
      toLower_toLower]
  induction cs generalizing n with
  | nil => rfl
  | cons c cs ih => simp only [List.map_cons, List.foldlM_cons, hpush, ih]

theorem foldlM_replicate_zero (hradix : 2 ≤ radix) (hsmall : radix ≤ 16) (zeros : Nat) :
    (List.replicate zeros '0').foldlM (pushDigit? radix) 0 = some 0 := by
  induction zeros with
  | zero => rfl
  | succ zeros ih =>
    have hzero : pushDigit? radix 0 '0' = some 0 :=
      (pushDigit?_eq_some_iff hsmall).mpr ⟨0, by omega, rfl, by omega⟩
    rw [List.replicate_succ, List.foldlM_cons, hzero]
    exact ih

theorem foldlM_toDigits (hradix : 2 ≤ radix) (hsmall : radix ≤ 16) (n : Nat) :
    (Nat.toDigits radix n).foldlM (pushDigit? radix) 0 = some n := by
  have hlower : ∀ d < 16, (Nat.digitChar d).toLower = Nat.digitChar d := by decide
  induction n using Nat.strongRecOn with
  | ind n ih =>
    obtain hn | hn := Nat.lt_or_ge n radix
    · rw [Nat.toDigits_of_lt_base hn, ← List.nil_append [_], foldlM_append_singleton,
        List.foldlM_nil, Option.pure_def, Option.bind_some, pushDigit?_eq_some_iff hsmall]
      exact ⟨n, hn, hlower n (by omega), by omega⟩
    · have hmod : n % radix < radix := Nat.mod_lt n (by omega)
      rw [Nat.toDigits_of_base_le (by omega) hn, foldlM_append_singleton,
        ih (n / radix) (Nat.div_lt_self (by omega) (by omega)), Option.bind_some,
        pushDigit?_eq_some_iff hsmall]
      exact ⟨n % radix, hmod, hlower _ (by omega), Nat.div_add_mod' n radix⟩

theorem Spells.ne_nil {cs : List Char} {n : Nat} (h : Spells radix cs n) : cs ≠ [] := by
  rintro rfl
  obtain ⟨zeros, hzeros⟩ := h
  exact Nat.toDigits_ne_nil (List.append_eq_nil_iff.mp hzeros.symm).2

/-- **Numbers as they are spelled.** Exactly the spellings of a number are read as the number. -/
theorem readDigits?_eq_some_iff (hradix : 2 ≤ radix) (hsmall : radix ≤ 16) {cs : List Char}
    {n : Nat} : readDigits? radix cs = some n ↔ Spells radix cs n := by
  rw [readDigits?_eq]
  constructor
  · intro h
    split at h
    · cases h
    · next hne => exact spells_of_foldlM hradix hsmall (by simpa using hne) h
  · rintro ⟨zeros, hzeros⟩
    have hne : cs ≠ [] := Spells.ne_nil ⟨zeros, hzeros⟩
    rw [if_neg (by simpa using hne), ← foldlM_map_toLower hsmall, hzeros, List.foldlM_append,
      foldlM_replicate_zero hradix hsmall]
    exact foldlM_toDigits hradix hsmall n

theorem Spells.unique (hradix : 2 ≤ radix) (hsmall : radix ≤ 16) {cs : List Char} {m n : Nat}
    (hm : Spells radix cs m) (hn : Spells radix cs n) : m = n := by
  rw [← readDigits?_eq_some_iff hradix hsmall] at hm hn
  exact Option.some.inj (hm.symm.trans hn)

/-- The digits of a number spell it. -/
theorem spells_toDigits (hradix : 2 ≤ radix) (hsmall : radix ≤ 16) (n : Nat) :
    Spells radix (Nat.toDigits radix n) n := by
  rw [← readDigits?_eq_some_iff hradix hsmall, readDigits?_eq,
    if_neg (by simp [Nat.toDigits_ne_nil])]
  exact foldlM_toDigits hradix hsmall n

theorem exists_digit?_of_foldlM {cs : List Char} {m n : Nat}
    (h : cs.foldlM (pushDigit? radix) m = some n) : ∀ c ∈ cs, ∃ d, digit? radix c = some d := by
  induction cs generalizing m with
  | nil => simp
  | cons c cs ih =>
    rw [List.foldlM_cons, Option.bind_eq_bind, Option.bind_eq_some_iff] at h
    obtain ⟨k, hk, hcs⟩ := h
    obtain ⟨d, hd, -⟩ := Option.map_eq_some_iff.mp hk
    rw [List.forall_mem_cons]
    exact ⟨⟨d, hd⟩, ih hcs⟩

/-- A spelling of a number is made of digits. -/
theorem Spells.exists_digit? (hradix : 2 ≤ radix) (hsmall : radix ≤ 16) {cs : List Char} {n : Nat}
    (h : Spells radix cs n) : ∀ c ∈ cs, ∃ d, digit? radix c = some d := by
  rw [← readDigits?_eq_some_iff hradix hsmall, readDigits?_eq] at h
  split at h
  · cases h
  · exact exists_digit?_of_foldlM h

theorem Spells.mem_hexChars (hradix : 2 ≤ radix) (hsmall : radix ≤ 16) {cs : List Char} {n : Nat}
    (h : Spells radix cs n) : ∀ c ∈ cs, c ∈ hexChars := by
  intro c hc
  obtain ⟨d, hd⟩ := h.exists_digit? hradix hsmall c hc
  exact mem_hexChars_of_digit? hsmall hd

end

/-! ## Decimal spellings -/

theorem readDecimal?_eq_some_iff {cs : List Char} {n : Nat} :
    readDigits? 10 cs = some n ↔ Spells 10 cs n :=
  readDigits?_eq_some_iff (by decide) (by decide)

theorem Spells.isDigit {cs : List Char} {n : Nat} (h : Spells 10 cs n) :
    ∀ c ∈ cs, c.isDigit = true := by
  intro c hc
  obtain ⟨d, hd⟩ := h.exists_digit? (by decide) (by decide) c hc
  exact isDigit_of_digit? hd

/-- A decimal spelling has no letters. -/
theorem spells_ten_iff {cs : List Char} {n : Nat} :
    Spells 10 cs n ↔ ∃ zeros, cs = List.replicate zeros '0' ++ Nat.toDigits 10 n := by
  have hdigits {ds : List Char} (hds : ∀ c ∈ ds, c.isDigit = true) : ds.map Char.toLower = ds :=
    (List.map_congr_left fun c hc => toLower_of_isDigit (hds c hc)).trans (List.map_id ds)
  constructor
  · intro h
    have hlower := hdigits h.isDigit
    obtain ⟨zeros, hzeros⟩ := h
    exact ⟨zeros, hlower.symm.trans hzeros⟩
  · rintro ⟨zeros, rfl⟩
    refine ⟨zeros, hdigits fun c hc => ?_⟩
    obtain hc | hc := List.mem_append.mp hc
    · rw [List.eq_of_mem_replicate hc]
      rfl
    · exact Nat.isDigit_of_mem_toDigits (by decide) (by decide) hc

/-! ## Zeros in front -/

/-- A positive number does not start with a zero. -/
theorem head?_toDigits {n : Nat} (h : 0 < n) : (Nat.toDigits 10 n).head? ≠ some '0' := by
  induction n using Nat.strongRecOn with
  | ind n ih =>
    by_cases hn : n < 10
    · rw [Nat.toDigits_of_lt_base hn, List.head?_cons, Ne, Option.some_inj, Nat.digitChar_eq_zero]
      omega
    · have hhead := List.head?_eq_some_head (Nat.toDigits_ne_nil (n := n / 10) (b := 10))
      rw [Nat.toDigits_of_base_le (by omega) (by omega), List.head?_append, hhead, Option.some_or,
        ← hhead]
      exact ih (n / 10) (by omega) (by omega)

/-- A number starts with a zero only when it is zero. -/
theorem toDigits_eq_zero_cons {n : Nat} {ds : List Char} (h : Nat.toDigits 10 n = '0' :: ds) :
    ds = [] := by
  obtain rfl | hpos := Nat.eq_zero_or_pos n
  · cases h
    rfl
  · have hhead := head?_toDigits hpos
    rw [h] at hhead
    exact absurd rfl hhead

end NoteTools.Numeric
