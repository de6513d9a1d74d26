import Mathlib.Algebra.Order.Field.Power
import Mathlib.Data.Rat.Cast.Order
import Mathlib.Tactic.FieldSimp
import Mathlib.Tactic.Positivity
import NoteTools.Proofs.DecimalDigits
import NoteTools.Proofs.PropertyConditions

/-!
# Numbers in queries

A number is written in decimal: an optional sign, digits with an optional point among or beside
them, and an optional exponent. It denotes a rational number, and it may stand in a query when that
number rounds to a finite double. What is decided from the digits alone, without writing out a power
of ten, agrees with the exact comparison of rational numbers.

Main definitions:

* `Numeric.Numeral`, `Numeral.chars`, `Numeral.value`: a number, its text, and what it denotes.

Results:

* `Literal.read?_chars`, `Literal.exists_numeral`: the texts that are read are those of numbers;
* `Numeral.value_literal`: what is read is the number that is denoted;
* `Numeric.inRange_iff`: the bound on the magnitude;
* `numeric_condition`: the conditions on numeric properties.
-/

namespace NoteTools

namespace Numeric

/-! ## Specification -/

/-- A sign. -/
inductive Sign where
  | plus | minus
  deriving DecidableEq

/-- A sign as it is written, if there is one. -/
def Sign.chars : Option Sign → List Char
  | none => []
  | some .plus => ['+']
  | some .minus => ['-']

/-- A sign as a factor; there is no minus when no sign is written. -/
def Sign.factor : Option Sign → ℤ
  | some .minus => -1
  | _ => 1

/-- An exponent. -/
structure Exponent where
  /-- It is marked by a capital. -/
  capital : Bool
  /-- Its sign. -/
  sign : Option Sign
  /-- Its digits. -/
  digits : List (Fin 10)
  /-- There is a digit. -/
  digits_ne_nil : digits ≠ []

namespace Exponent

/-- An exponent as it is written, if there is one. -/
def chars : Option Exponent → List Char
  | none => []
  | some e => (if e.capital then 'E' else 'e') :: (Sign.chars e.sign ++ digitChars e.digits)

/-- The power of ten that an exponent means. -/
def power : Option Exponent → ℤ
  | none => 0
  | some e => Sign.factor e.sign * digitsNumber e.digits

end Exponent

/-- A number as it may be written. -/
structure Numeral where
  /-- The sign. -/
  sign : Option Sign
  /-- The digits before the point. -/
  whole : List (Fin 10)
  /-- The digits behind the point, if there is a point. -/
  fraction : Option (List (Fin 10))
  /-- The exponent. -/
  exponent : Option Exponent
  /-- There is a digit, before the point or behind it. -/
  digits_ne_nil : whole ≠ [] ∨ fraction.getD [] ≠ []

namespace Numeral

/-- The point and the digits behind it, as they are written. -/
def pointChars : Option (List (Fin 10)) → List Char
  | none => []
  | some ds => '.' :: digitChars ds

/-- A number as it is written. -/
def chars (n : Numeral) : List Char :=
  Sign.chars n.sign ++ (digitChars n.whole ++ (pointChars n.fraction ++ Exponent.chars n.exponent))

/-- The number that is denoted. -/
def value (n : Numeral) : ℚ :=
  Sign.factor n.sign *
    (digitsNumber n.whole + digitsNumber (n.fraction.getD []) / 10 ^ (n.fraction.getD []).length) *
      10 ^ Exponent.power n.exponent

/-- The literal of a number. -/
def literal (n : Numeral) : Literal where
  negative := n.sign == some .minus
  whole := digitChars n.whole
  fraction := digitChars (n.fraction.getD [])
  exponent := Exponent.power n.exponent

end Numeral

/-! ## Reading -/

namespace Literal

theorem takeSign_chars {sign : Option Sign} {rest : List Char}
    (h : ∀ c ∈ rest.head?, c ≠ '+' ∧ c ≠ '-') :
    takeSign (Sign.chars sign ++ rest) = (sign == some .minus, rest) := by
  rcases sign with _ | _ | _
  · rw [Sign.chars, List.nil_append]
    unfold takeSign
    split
    · exact absurd rfl (h _ rfl).2
    · exact absurd rfl (h _ rfl).1
    · rfl
  · rfl
  · rfl

/-- A text is a sign, or none, and what follows. -/
theorem exists_sign (cs : List Char) :
    ∃ sign, (takeSign cs).1 = (sign == some .minus) ∧ cs = Sign.chars sign ++ (takeSign cs).2 := by
  unfold takeSign
  split
  · exact ⟨some .minus, rfl, rfl⟩
  · exact ⟨some .plus, rfl, rfl⟩
  · exact ⟨none, rfl, rfl⟩

theorem not_sign_of_isDigit {c : Char} (h : c.isDigit = true) : c ≠ '+' ∧ c ≠ '-' := by
  constructor <;> rintro rfl <;> exact absurd h (by decide)

/-- Digits start with a digit, and what follows shows only behind none. -/
theorem forall_head?_digitChars {P : Char → Prop} {ds : List (Fin 10)} {rest : List Char}
    (hdigit : ∀ c : Char, c.isDigit = true → P c) (hrest : ds = [] → ∀ c ∈ rest.head?, P c) :
    ∀ c ∈ (digitChars ds ++ rest).head?, P c := by
  cases ds with
  | nil => exact hrest rfl
  | cons d ds =>
    rintro c ⟨⟩
    exact hdigit _ (isDigit_iff.mpr ⟨d, d.isLt, rfl⟩)

theorem not_isDigit_of_exponent (e : Option Exponent) :
    ∀ c ∈ (Exponent.chars e).head?, c.isDigit = false := by
  rcases e with _ | ⟨_ | _, -, -, -⟩
  · rintro c ⟨⟩
  · rintro c ⟨⟩; rfl
  · rintro c ⟨⟩; rfl

theorem chars_exponent_ne_point (e : Option Exponent) (cs : List Char) :
    Exponent.chars e ≠ '.' :: cs := by
  rcases e with _ | ⟨_ | _, -, -, -⟩ <;> rintro ⟨⟩

/-- An exponent is read as the power that it means. -/
theorem readExponent?_chars (e : Option Exponent) :
    readExponent? (Exponent.chars e) = some (Exponent.power e) := by
  cases e with
  | none => rfl
  | some e =>
    have hmark :
        (if e.capital then 'E' else 'e') = 'e' ∨ (if e.capital then 'E' else 'e') = 'E' := by
      cases e.capital <;> simp
    have hsign : takeSign (Sign.chars e.sign ++ digitChars e.digits) =
        (e.sign == some .minus, digitChars e.digits) := by
      apply takeSign_chars
      rw [← List.append_nil (digitChars e.digits)]
      exact forall_head?_digitChars (fun c => not_sign_of_isDigit) fun hnil =>
        absurd hnil e.digits_ne_nil
    have hdigits : (!(digitChars e.digits).isEmpty && (digitChars e.digits).all Char.isDigit) =
        true := by
      rw [Bool.and_eq_true, List.all_eq_true]
      refine ⟨?_, fun c hc => isDigit_of_mem_digitChars hc⟩
      simpa [digitChars] using e.digits_ne_nil
    rw [Exponent.chars, readExponent?, if_pos hmark, hsign]
    dsimp only
    rw [if_pos hdigits, digitsValue_digitChars, Exponent.power]
    rcases e.sign with _ | _ | _ <;> simp [Sign.factor]

/-- What is read as an exponent is one. -/
theorem exists_exponent {cs : List Char} {n : ℤ} (h : readExponent? cs = some n) :
    ∃ e, cs = Exponent.chars e ∧ n = Exponent.power e := by
  cases cs with
  | nil => exact ⟨none, rfl, (Option.some.inj h).symm⟩
  | cons mark cs =>
    obtain ⟨sign, hsign, hcs⟩ := exists_sign cs
    rw [readExponent?] at h
    generalize takeSign cs = taken at hsign hcs h
    obtain ⟨hmark, h⟩ := Option.ite_none_right_eq_some.mp h
    obtain ⟨hdigits, h⟩ := Option.ite_none_right_eq_some.mp h
    rw [Bool.and_eq_true, List.all_eq_true] at hdigits
    obtain ⟨ds, hds⟩ := exists_digitChars hdigits.2
    rw [hds] at hcs hdigits h
    have hne : ds ≠ [] := by
      rintro rfl
      exact absurd hdigits.1 (by decide)
    refine ⟨some ⟨mark == 'E', sign, ds, hne⟩, ?_, ?_⟩
    · obtain rfl | rfl := hmark <;> rw [hcs] <;> rfl
    · rw [← Option.some.inj h, hsign, digitsValue_digitChars, Exponent.power]
      rcases sign with _ | _ | _ <;> simp [Sign.factor]

/-- Of the digits on both sides of the point there is one. -/
theorem isEmpty_digitChars {ds ds' : List (Fin 10)} :
    ((digitChars ds).isEmpty && (digitChars ds').isEmpty) = false ↔ ds ≠ [] ∨ ds' ≠ [] := by
  rw [Bool.and_eq_false_iff]
  simp [digitChars]

/-- A number is read as its literal. -/
theorem read?_chars (n : Numeral) : read? n.chars = some n.literal := by
  obtain ⟨sign, whole, fraction, exponent, hne⟩ := n
  have hstart : ∀ c ∈ (digitChars whole ++
      (Numeral.pointChars fraction ++ Exponent.chars exponent)).head?, c ≠ '+' ∧ c ≠ '-' := by
    refine forall_head?_digitChars (fun c => not_sign_of_isDigit) fun hnil c hc => ?_
    cases fraction with
    | none => exact absurd hne (by simp [hnil])
    | some ds =>
      obtain rfl := Option.some.inj hc
      decide
  have hexponent := not_isDigit_of_exponent exponent
  have hdigits := isEmpty_digitChars.mpr hne
  rw [Numeral.chars, read?, takeSign_chars hstart]
  cases fraction with
  | none =>
    obtain ⟨hwhole, hrest⟩ := takeWhile_digitChars whole hexponent
    simp only [Numeral.pointChars, List.nil_append, hwhole, hrest]
    split
    · -- The mark of an exponent is not a point.
      next hpoint => exact absurd hpoint (chars_exponent_ne_point exponent _)
    · rw [readExponent?_chars]
      exact if_neg (Bool.eq_false_iff.mp hdigits)
  | some ds =>
    obtain ⟨hfraction, hrest⟩ := takeWhile_digitChars ds hexponent
    have hpoint : ∀ c ∈ ('.' :: (digitChars ds ++ Exponent.chars exponent)).head?,
        c.isDigit = false := by
      rintro c ⟨⟩
      rfl
    obtain ⟨hwhole, hafter⟩ := takeWhile_digitChars whole hpoint
    simp only [Numeral.pointChars, List.cons_append, hwhole, hafter, hfraction, hrest]
    rw [readExponent?_chars]
    exact if_neg (Bool.eq_false_iff.mp hdigits)

/-- What is read as a literal is a number. -/
theorem exists_numeral {cs : List Char} {l : Literal} (h : read? cs = some l) :
    ∃ n : Numeral, cs = n.chars ∧ l = n.literal := by
  obtain ⟨sign, hsign, hcs⟩ := exists_sign cs
  rw [read?] at h
  generalize takeSign cs = taken at hsign hcs h
  obtain ⟨negative, rest⟩ := taken
  obtain ⟨whole, hwhole, hrest⟩ := exists_takeWhile_digits rest
  simp only at h hcs hsign
  rw [hwhole] at h
  generalize rest.dropWhile Char.isDigit = tail at h hrest
  split at h
  next after =>
    dsimp only at h
    -- A point, further digits and an exponent.
    obtain ⟨ds, hds, hafter⟩ := exists_takeWhile_digits after
    simp only [hds] at h
    obtain ⟨hdigits, h⟩ := Option.ite_none_left_eq_some.mp h
    obtain ⟨power, hpower, rfl⟩ := Option.map_eq_some_iff.mp h
    obtain ⟨e, he, rfl⟩ := exists_exponent hpower
    refine ⟨⟨sign, whole, some ds, e,
      isEmpty_digitChars.mp (Bool.eq_false_iff.mpr hdigits)⟩, ?_, ?_⟩
    · rw [hcs, hrest, hafter, he]
      rfl
    · rw [hsign]
      rfl
  next =>
    dsimp only at h
    obtain ⟨hdigits, h⟩ := Option.ite_none_left_eq_some.mp h
    obtain ⟨power, hpower, rfl⟩ := Option.map_eq_some_iff.mp h
    obtain ⟨e, he, rfl⟩ := exists_exponent hpower
    refine ⟨⟨sign, whole, none, e, isEmpty_digitChars.mp (Bool.eq_false_iff.mpr hdigits)⟩, ?_, ?_⟩
    · rw [hcs, hrest, he]
      rfl
    · rw [hsign]
      rfl

end Literal

/-! ## Magnitude -/

/-- The number that a literal stands for. -/
def Literal.value (l : Literal) : ℚ :=
  (if l.negative then -1 else 1) * (l.significand * 10 ^ l.scale)

namespace Numeral

variable (n : Numeral)

theorem significand_literal :
    n.literal.significand = digitsNumber (n.whole ++ n.fraction.getD []) := by
  rw [← digitsValue_digitChars, digitChars, List.map_append]
  rfl

/-- All digits as one number, scaled by a power of ten, are the number that is denoted. -/
theorem value_literal : n.literal.value = n.value := by
  have hscale :
      n.literal.scale = Exponent.power n.exponent - ((n.fraction.getD []).length : ℤ) := by
    simp only [Literal.scale, literal, digitChars, List.length_map]
  have hsign : (if n.literal.negative then -1 else 1 : ℚ) = Sign.factor n.sign := by
    rw [literal]
    rcases n.sign with _ | _ | _ <;> simp [Sign.factor]
  rw [Literal.value, hsign, significand_literal, digitsNumber_append, hscale,
    zpow_sub₀ (by norm_num), zpow_natCast, value]
  push_cast
  field_simp

/-- A text denotes at most one number. -/
theorem value_eq_of_chars_eq {n n' : Numeral} (h : n.chars = n'.chars) : n.value = n'.value := by
  have hread := Literal.read?_chars n
  rw [h, Literal.read?_chars n'] at hread
  rw [← value_literal, ← value_literal, Option.some.inj hread]

/-- The magnitude is all digits as one number, scaled by a power of ten. -/
theorem abs_value : |n.value| = n.literal.significand * (10 : ℚ) ^ n.literal.scale := by
  have hsign : |(if n.literal.negative then -1 else 1 : ℚ)| = 1 := by
    split <;> simp
  rw [← value_literal, Literal.value, abs_mul, hsign, one_mul, abs_of_nonneg (by positivity)]

end Numeral

/-! ## Characters -/

theorem digitChars_subset (ds : List (Fin 10)) : digitChars ds ⊆ "0123456789+-.eE".toList := by
  have hdigit : ∀ d : Fin 10, Nat.digitChar d.val ∈ "0123456789+-.eE".toList := by decide
  intro c hc
  obtain ⟨d, -, rfl⟩ := List.mem_map.mp hc
  exact hdigit d

theorem Sign.chars_subset (sign : Option Sign) : Sign.chars sign ⊆ "0123456789+-.eE".toList := by
  rcases sign with _ | _ | _ <;> decide

theorem Exponent.chars_subset (e : Option Exponent) :
    Exponent.chars e ⊆ "0123456789+-.eE".toList := by
  cases e with
  | none => exact List.nil_subset _
  | some e =>
    refine List.cons_subset.mpr
      ⟨?_, List.append_subset.mpr ⟨Sign.chars_subset _, digitChars_subset _⟩⟩
    split <;> decide

/-- What a number may be written with. -/
theorem Numeral.chars_subset (n : Numeral) : n.chars ⊆ "0123456789+-.eE".toList := by
  have hpoint : pointChars n.fraction ⊆ "0123456789+-.eE".toList := by
    cases n.fraction with
    | none => exact List.nil_subset _
    | some ds => exact List.cons_subset.mpr ⟨by decide, digitChars_subset ds⟩
  rw [chars, List.append_subset, List.append_subset, List.append_subset]
  exact ⟨Sign.chars_subset _, digitChars_subset _, hpoint, Exponent.chars_subset _⟩

/-! ## The bound -/

namespace Literal

theorem cast_bound : (bound : ℚ) = 2 ^ 1024 - 2 ^ 970 := by
  decide +kernel

theorem one_lt_bound : 1 < bound := by
  decide +kernel

/-- A number of more digits than `bound` has is beyond it. -/
theorem bound_le : bound ≤ 10 ^ 310 := by
  decide +kernel

variable {l : Literal}

/-- With no power of ten to divide by, the comparison is one of natural numbers. -/
theorem lt_bound_iff :
    (l.significand : ℚ) * 10 ^ l.scale < bound ↔
      match l.scale with
      | .ofNat e => l.significand * 10 ^ e < bound
      | .negSucc e => l.significand < bound * 10 ^ (e + 1) := by
  cases l.scale with
  | ofNat e =>
    dsimp only
    rw [Int.ofNat_eq_natCast, zpow_natCast]
    exact_mod_cast Iff.rfl
  | negSucc e =>
    dsimp only
    rw [zpow_negSucc, ← div_eq_mul_inv, div_lt_iff₀ (by positivity)]
    exact_mod_cast Iff.rfl

/-- A value without a digit before the point is in range. -/
theorem lt_bound_of_size_neg {k : ℕ} (hlt : l.significand < 10 ^ (k + 1))
    (hsize : (k + 1 : ℤ) + l.scale < 0) : (l.significand : ℚ) * 10 ^ l.scale < bound := by
  have hsignificand : (l.significand : ℚ) < 10 ^ (k + 1 : ℤ) := by exact_mod_cast hlt
  calc (l.significand : ℚ) * 10 ^ l.scale
      < 10 ^ (k + 1 : ℤ) * 10 ^ l.scale := by gcongr
    _ = 10 ^ ((k + 1 : ℤ) + l.scale) := (zpow_add₀ (by norm_num) _ _).symm
    _ ≤ 1 := zpow_le_one_of_nonpos₀ (by norm_num) hsize.le
    _ ≤ bound := by exact_mod_cast one_lt_bound.le

/-- A value with too many digits before the point is not in range. -/
theorem bound_le_of_size {k : ℕ} (hle : 10 ^ k ≤ l.significand)
    (hsize : 310 < (k + 1 : ℤ) + l.scale) : (bound : ℚ) ≤ l.significand * 10 ^ l.scale := by
  have hsignificand : (10 : ℚ) ^ (k : ℤ) ≤ l.significand := by exact_mod_cast hle
  calc (bound : ℚ) ≤ 10 ^ (310 : ℤ) := by exact_mod_cast bound_le
    _ ≤ 10 ^ ((k : ℤ) + l.scale) := zpow_le_zpow_right₀ (by norm_num) (by omega)
    _ = 10 ^ (k : ℤ) * 10 ^ l.scale := zpow_add₀ (by norm_num) _ _
    _ ≤ l.significand * 10 ^ l.scale := by gcongr

end Literal

/-- **The bound on the magnitude.** What is decided from the digits is the exact comparison. -/
theorem inRange_iff (n : Numeral) :
    n.literal.inRange = true ↔ |n.value| < 2 ^ 1024 - 2 ^ 970 := by
  have hdigits : n.literal.digits = digitChars (n.whole ++ n.fraction.getD []) := by
    rw [digitChars, List.map_append]
    rfl
  rw [Numeral.abs_value, ← Literal.cast_bound, Literal.inRange, hdigits, dropWhile_digitChars]
  by_cases hzero : n.literal.significand = 0
  · rw [if_pos (Or.inl hzero), hzero, Nat.cast_zero, zero_mul]
    exact iff_of_true rfl (by exact_mod_cast Nat.zero_lt_of_lt Literal.one_lt_bound)
  · have hsignificand := Numeral.significand_literal n
    obtain ⟨k, hlength, hle, hlt⟩ := exists_length_dropWhile (hsignificand ▸ hzero)
    rw [← hsignificand] at hle hlt
    rw [digitChars, List.length_map, hlength, Nat.cast_add, Nat.cast_one]
    split
    next h => exact iff_of_true rfl (Literal.lt_bound_of_size_neg hlt (h.resolve_left hzero))
    split
    next h => exact iff_of_false (by decide) (Literal.bound_le_of_size hle h).not_gt
    next =>
      rw [Literal.lt_bound_iff]
      cases n.literal.scale <;> exact decide_eq_true_iff

/-- The texts that are numbers in range. -/
theorem isFiniteNumber_iff {s : String} :
    isFiniteNumber s = true ↔
      ∃ n : Numeral, n.chars = s.toList ∧ |n.value| < 2 ^ 1024 - 2 ^ 970 := by
  rw [isFiniteNumber]
  constructor
  · intro h
    cases hread : Literal.read? s.toList with
    | none =>
      rw [hread] at h
      cases h
    | some l =>
      rw [hread] at h
      obtain ⟨n, hchars, rfl⟩ := Literal.exists_numeral hread
      exact ⟨n, hchars.symm, (inRange_iff n).mp h⟩
  · rintro ⟨n, hchars, hlt⟩
    rw [← hchars, Literal.read?_chars]
    exact (inRange_iff n).mpr hlt

/-- A digit on one side of the point is enough. Names of numbers, separators and other bases are not
read, and what rounds to infinity is out of range. -/
example : ["5.", ".5", "+1E05", "000.000e-400"].all isFiniteNumber = true ∧
    ["inf", "nan", "0x10", "1_000", ".", "1e", "1e309"].any isFiniteNumber = false := by
  decide +kernel

end Numeric

/-! ## Conditions -/

namespace Criterion

variable {c : Criterion} {value : String}

theorem class_of_numericKeys {key : String} (h : key ∈ numericKeys) :
    PropertyClass.of? key = some .numeric := by
  have hapart : ∀ key ∈ numericKeys, key ∉ booleanKeys := by decide
  rw [PropertyClass.of?, if_neg (hapart key h), if_pos h]

/-- A comparison with a number has the number as it was given, without quotes; anything else is
dropped. -/
theorem fragment_of_numericKeys (hkey : keyOf c.property ∈ numericKeys) (h : c.Compares value) :
    ∃ op, Operator.of? c = some (.compare op) ∧
      c.fragment =
        if Numeric.isFiniteNumber (Text.trim value) then
          .ok (.condition
            ("note." ++ keyOf c.property ++ " " ++ op.token ++ " " ++ Text.trim value))
        else .ok (.dropped (.notNumber value)) := by
  obtain ⟨op, hop, hfragment⟩ := fragment_of_compares (class_of_numericKeys hkey) h
  refine ⟨op, hop, ?_⟩
  rw [hfragment, PropertyClass.render]
  by_cases hnumber : Numeric.isFiniteNumber (Text.trim value) = true
  · rw [if_pos hnumber, if_pos hnumber]
  · rw [if_neg hnumber, if_neg hnumber]

end Criterion

/-- **Conditions on numbers.** A comparison of a numeric property is a condition exactly when the
trimmed value is written as a number, and the number rounds to a finite double. The condition ends
in the trimmed value as it is, which has nothing but digits, signs, points and marks of exponents.
Everything else is dropped with the value as it was given. -/
theorem numeric_condition {c : Criterion} {value : String}
    (hkey : Criterion.keyOf c.property ∈ numericKeys) (h : c.Compares value) :
    ((∃ text, c.fragment = .ok (.condition text)) ↔
        ∃ n : Numeric.Numeral, n.chars = (Text.trim value).toList ∧
          |n.value| < 2 ^ 1024 - 2 ^ 970) ∧
      (∀ n n' : Numeric.Numeral, n.chars = (Text.trim value).toList →
        n'.chars = (Text.trim value).toList → n.value = n'.value) ∧
      (∀ text, c.fragment = .ok (.condition text) →
        (∃ op, Operator.of? c = some (.compare op) ∧
          text = "note." ++ Criterion.keyOf c.property ++ " " ++ op.token ++ " " ++
            Text.trim value) ∧
        (Text.trim value).toList ⊆ "0123456789+-.eE".toList) ∧
      ((¬∃ text, c.fragment = .ok (.condition text)) →
        c.fragment = .ok (.dropped (.notNumber value))) := by
  obtain ⟨op, hop, hfragment⟩ := Criterion.fragment_of_numericKeys hkey h
  have hunique (n n' : Numeric.Numeral) (hn : n.chars = (Text.trim value).toList)
      (hn' : n'.chars = (Text.trim value).toList) : n.value = n'.value :=
    Numeric.Numeral.value_eq_of_chars_eq (hn.trans hn'.symm)
  rw [← Numeric.isFiniteNumber_iff, hfragment]
  by_cases hnumber : Numeric.isFiniteNumber (Text.trim value) = true
  · rw [if_pos hnumber]
    refine ⟨iff_of_true ⟨_, rfl⟩ hnumber, hunique, ?_, fun hnot => absurd ⟨_, rfl⟩ hnot⟩
    rintro text ⟨⟩
    obtain ⟨n, hchars, -⟩ := Numeric.isFiniteNumber_iff.mp hnumber
    have hsubset := n.chars_subset
    rw [hchars] at hsubset
    exact ⟨⟨op, hop, rfl⟩, hsubset⟩
  · rw [if_neg hnumber]
    exact ⟨iff_of_false nofun hnumber, hunique, nofun, fun _ => rfl⟩

/-- A comparison of the number of labels. -/
def labelCriterion (value : String) : Criterion where
  property := " note.labelCount "
  kind := .noteProperty
  op := some ">="
  value := some value
  connector := none

theorem numeric_condition_labelCount :
    (∃ text, (labelCriterion " +1E05 ").fragment = .ok (.condition text)) ∧
      (labelCriterion " 1e309 ").fragment = .ok (.dropped (.notNumber " 1e309 ")) := by
  have hcompares (value : String) (hblank : Text.blank value = false) :
      (labelCriterion value).Compares value :=
    ⟨rfl, ⟨">=", rfl, by decide⟩, rfl, hblank⟩
  have hkey (value : String) : Criterion.keyOf (labelCriterion value).property ∈ numericKeys := by
    show Criterion.keyOf " note.labelCount " ∈ numericKeys
    decide
  constructor
  · obtain ⟨hiff, -⟩ := numeric_condition (hkey " +1E05 ") (hcompares _ (by decide))
    refine hiff.mpr
      ⟨⟨some .plus, [1], none, some ⟨true, none, [0, 5], by decide⟩, by decide⟩, ?_, ?_⟩
    · decide
    · exact (Numeric.inRange_iff _).mp (by decide +kernel)
  · obtain ⟨hiff, -, -, hdropped⟩ := numeric_condition (hkey " 1e309 ") (hcompares _ (by decide))
    apply hdropped
    rw [hiff, ← Numeric.isFiniteNumber_iff]
    decide +kernel

end NoteTools
