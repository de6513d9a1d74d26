import Mathlib.Data.List.Induction
import Mathlib.Data.Nat.Digits.Lemmas
import Mathlib.Tactic.Ring
import NoteTools.Numeric.Literal

/-!
# Decimal digits

A list of decimal digits, the most significant one first, as characters and as the number that it
stands for.

Main definitions:

* `digitChars`: digits as they are written;
* `digitsNumber`: the number that digits stand for.

Results:

* `isDigit_iff`, `exists_digitChars`: the characters that are digits;
* `digitsValue_digitChars`: written digits are read as their number;
* `digitsNumber_append`, `digitsNumber_lt`, `le_digitsNumber`: digits behind one another, and how
  large their number is.
-/

namespace NoteTools.Numeric

/-- Digits as they are written. -/
def digitChars (ds : List (Fin 10)) : List Char :=
  ds.map fun d => Nat.digitChar d.val

/-- The number that digits stand for, the first one being the most significant. -/
def digitsNumber (ds : List (Fin 10)) : ℕ :=
  Nat.ofDigits 10 (ds.reverse.map Fin.val)

/-! ## Characters -/

theorem isDigit_iff {c : Char} : c.isDigit = true ↔ ∃ n < 10, c = Nat.digitChar n := by
  constructor
  · intro h
    simp only [Char.isDigit, Bool.and_eq_true, decide_eq_true_eq, UInt32.le_iff_toNat_le] at h
    have hc : 48 ≤ c.toNat ∧ c.toNat ≤ 57 := h
    refine ⟨c.toNat - 48, by omega, ?_⟩
    rw [← Char.toNat_inj, Nat.toNat_digitChar_of_lt_ten (by omega)]
    omega
  · rintro ⟨n, hn, rfl⟩
    rw [Nat.isDigit_digitChar, decide_eq_true hn]

theorem isDigit_of_mem_digitChars {ds : List (Fin 10)} {c : Char} (h : c ∈ digitChars ds) :
    c.isDigit = true := by
  obtain ⟨d, -, rfl⟩ := List.mem_map.mp h
  exact isDigit_iff.mpr ⟨d, d.isLt, rfl⟩

/-- Characters that are digits are digits as they are written. -/
theorem exists_digitChars {cs : List Char} (h : ∀ c ∈ cs, c.isDigit = true) :
    ∃ ds, cs = digitChars ds := by
  induction cs with
  | nil => exact ⟨[], rfl⟩
  | cons c cs ih =>
    obtain ⟨hc, hcs⟩ := List.forall_mem_cons.mp h
    obtain ⟨n, hn, rfl⟩ := isDigit_iff.mp hc
    obtain ⟨ds, rfl⟩ := ih hcs
    exact ⟨⟨n, hn⟩ :: ds, rfl⟩

/-- Digits are read up to the first character that is none. -/
theorem takeWhile_digitChars (ds : List (Fin 10)) {rest : List Char}
    (h : ∀ c ∈ rest.head?, c.isDigit = false) :
    (digitChars ds ++ rest).takeWhile Char.isDigit = digitChars ds ∧
      (digitChars ds ++ rest).dropWhile Char.isDigit = rest := by
  have hall : ∀ c ∈ digitChars ds, c.isDigit = true := fun c => isDigit_of_mem_digitChars
  rw [List.takeWhile_append_of_pos hall, List.dropWhile_append_of_pos hall]
  cases rest with
  | nil => simp
  | cons c rest => simp [h c rfl]

/-- A text is the digits at its start and what follows them. -/
theorem exists_takeWhile_digits (cs : List Char) :
    ∃ ds, cs.takeWhile Char.isDigit = digitChars ds ∧
      cs = digitChars ds ++ cs.dropWhile Char.isDigit := by
  obtain ⟨ds, hds⟩ := exists_digitChars (List.all_eq_true.mp (List.all_takeWhile (l := cs)))
  refine ⟨ds, hds, ?_⟩
  rw [← hds, List.takeWhile_append_dropWhile]

/-! ## Numbers -/

theorem digitsNumber_append (ds ds' : List (Fin 10)) :
    digitsNumber (ds ++ ds') = digitsNumber ds * 10 ^ ds'.length + digitsNumber ds' := by
  rw [digitsNumber, List.reverse_append, List.map_append, Nat.ofDigits_append, List.length_map,
    List.length_reverse, ← digitsNumber, ← digitsNumber]
  ring

theorem digitsNumber_singleton (d : Fin 10) : digitsNumber [d] = d :=
  Nat.ofDigits_singleton

theorem digitsNumber_cons (d : Fin 10) (ds : List (Fin 10)) :
    digitsNumber (d :: ds) = d * 10 ^ ds.length + digitsNumber ds := by
  rw [← List.singleton_append, digitsNumber_append, digitsNumber_singleton]

theorem digitsNumber_lt (ds : List (Fin 10)) : digitsNumber ds < 10 ^ ds.length := by
  have hlt := Nat.ofDigits_lt_base_pow_length (b := 10) (l := ds.reverse.map Fin.val) (by decide)
    (by simp only [List.mem_map]; rintro _ ⟨d, -, rfl⟩; exact d.isLt)
  rwa [List.length_map, List.length_reverse] at hlt

/-- A number has as many digits as are written without zeros in front. -/
theorem le_digitsNumber {d : Fin 10} (h : d ≠ 0) (ds : List (Fin 10)) :
    10 ^ ds.length ≤ digitsNumber (d :: ds) := by
  have hd : 1 ≤ d.val := Nat.one_le_iff_ne_zero.mpr fun h0 => h (Fin.ext h0)
  rw [digitsNumber_cons]
  calc 10 ^ ds.length = 1 * 10 ^ ds.length := (one_mul _).symm
    _ ≤ d.val * 10 ^ ds.length := Nat.mul_le_mul_right _ hd
    _ ≤ d.val * 10 ^ ds.length + digitsNumber ds := Nat.le_add_right _ _

/-- Zeros in front do not count. -/
theorem digitsNumber_dropWhile (ds : List (Fin 10)) :
    digitsNumber (ds.dropWhile (· == 0)) = digitsNumber ds := by
  induction ds with
  | nil => rfl
  | cons d ds ih =>
    by_cases h : d = 0
    · subst h
      rw [List.dropWhile_cons_of_pos (by decide), ih, digitsNumber_cons]
      simp
    · rw [List.dropWhile_cons_of_neg (by simpa using h)]

/-- How many digits a number has says how large it is. -/
theorem exists_length_dropWhile {ds : List (Fin 10)} (h : digitsNumber ds ≠ 0) :
    ∃ k, (ds.dropWhile (· == 0)).length = k + 1 ∧ 10 ^ k ≤ digitsNumber ds ∧
      digitsNumber ds < 10 ^ (k + 1) := by
  rw [← digitsNumber_dropWhile] at h ⊢
  have hlt := digitsNumber_lt (ds.dropWhile (· == 0))
  cases hdigits : ds.dropWhile (· == 0) with
  | nil =>
    rw [hdigits] at h
    exact absurd rfl h
  | cons d rest =>
    rw [hdigits] at hlt
    have hd : ¬(d == 0) = true := by
      have hhead := List.head_dropWhile_not (· == 0) (l := ds) (by rw [hdigits]; simp)
      simpa [hdigits] using hhead
    exact ⟨rest.length, rfl, le_digitsNumber (by simpa using hd) rest, hlt⟩

/-- Written digits are read as their number. -/
theorem digitsValue_digitChars (ds : List (Fin 10)) :
    digitsValue (digitChars ds) = digitsNumber ds := by
  induction ds using List.reverseRecOn with
  | nil => rfl
  | append_singleton ds d ih =>
    have hd : (Nat.digitChar d.val).toNat - 48 = d.val := by
      rw [Nat.toNat_digitChar_of_lt_ten d.isLt, Nat.add_sub_cancel_left]
    rw [digitsNumber_append, digitsNumber_singleton, List.length_singleton, pow_one, ← ih]
    simp only [digitsValue, digitChars, List.map_append, List.map_cons, List.map_nil,
      List.foldl_append, List.foldl_cons, List.foldl_nil, hd]

theorem dropWhile_digitChars (ds : List (Fin 10)) :
    (digitChars ds).dropWhile (· == '0') = digitChars (ds.dropWhile (· == 0)) := by
  have hzero : ∀ d : Fin 10, (Nat.digitChar d.val == '0') = (d == 0) := by decide
  induction ds with
  | nil => rfl
  | cons d ds ih =>
    have hcons : digitChars (d :: ds) = Nat.digitChar d.val :: digitChars ds := rfl
    rw [hcons, List.dropWhile_cons, List.dropWhile_cons, hzero, ih]
    split <;> rfl

end NoteTools.Numeric
