import NoteTools.Proofs.DecimalDigits
import NoteTools.Query.Fragment

/-!
# Dates as they are written

A date has one of three shapes: `YYYY-MM-DD`, `YYYY-MM-DDThh:mm:ssZ` and `YYYY-MM-DDThh:mm:ss.sssZ`,
in ASCII digits and with nothing around them. What is read from a text with a shape are the numbers
that it is written with, so a date is refused for its numbers only when they name no day of the
Gregorian calendar or no time on the clock, and for its shape otherwise.

Main definitions:

* `Calendar.Stamp.Written`: a stamp and the texts that it is written as;
* `Calendar.Stamp.InCalendar`: the calendar and the clock, by the lengths of the months.

Results:

* `Calendar.Stamp.read?_eq_some_iff`: what is read is what is written;
* `Calendar.Stamp.isReal_iff`: a stamp is real exactly when it is in the calendar;
* `checkDate_outcomes`: which texts are accepted, and how the others are refused.
-/

namespace NoteTools

namespace Calendar

/-! ## Specification -/

/-- A number below a hundred in two digits. -/
def twoDigits (n : Nat) : List Char :=
  [Nat.digitChar (n / 10), Nat.digitChar (n % 10)]

/-- A number below a thousand in three digits. -/
def threeDigits (n : Nat) : List Char :=
  Nat.digitChar (n / 100) :: twoDigits (n % 100)

/-- The numbers of a day have the digits that there is room for. -/
def Day.Fits (d : Day) : Prop :=
  d.year < 10000 ∧ d.month < 100 ∧ d.day < 100

/-- The numbers of a time of day have the digits that there is room for. -/
def Clock.Fits (t : Clock) : Prop :=
  t.hour < 100 ∧ t.minute < 100 ∧ t.second < 100

/-- `YYYY-MM-DD`. -/
def Day.chars (d : Day) : List Char :=
  twoDigits (d.year / 100) ++ twoDigits (d.year % 100) ++ ['-'] ++ twoDigits d.month ++ ['-']
    ++ twoDigits d.day

/-- `hh:mm:ss`. -/
def Clock.chars (t : Clock) : List Char :=
  twoDigits t.hour ++ [':'] ++ twoDigits t.minute ++ [':'] ++ twoDigits t.second

/-- A stamp and a text that it is written as. -/
inductive Stamp.Written : Stamp → List Char → Prop
  /-- A day, `YYYY-MM-DD`. -/
  | day {d : Day} : d.Fits → Written ⟨d, none⟩ d.chars
  /-- A moment, `YYYY-MM-DDThh:mm:ssZ`. -/
  | moment {d : Day} {t : Clock} : d.Fits → t.Fits →
    Written ⟨d, some t⟩ (d.chars ++ 'T' :: t.chars ++ ['Z'])
  /-- A moment with its thousandths, `YYYY-MM-DDThh:mm:ss.sssZ`. -/
  | fraction {d : Day} {t : Clock} {n : Nat} : d.Fits → t.Fits → n < 1000 →
    Written ⟨d, some t⟩ (d.chars ++ 'T' :: t.chars ++ '.' :: threeDigits n ++ ['Z'])

/-- The lengths of the months of a year of the Gregorian calendar. A year is a leap year when it is
divisible by 4, but not when it is divisible by 100, unless it is divisible by 400. -/
def monthLengths (year : Nat) : List Nat :=
  let leap := 4 ∣ year ∧ (100 ∣ year → 400 ∣ year)
  [31, if leap then 29 else 28, 31, 30, 31, 30, 31, 31, 30, 31, 30, 31]

/-- The day is one of its month, and the time one of the day. -/
structure Stamp.InCalendar (s : Stamp) : Prop where
  month : 1 ≤ s.date.month ∧ s.date.month ≤ 12
  day : 1 ≤ s.date.day ∧
    ∃ length, (monthLengths s.date.year)[s.date.month - 1]? = some length ∧ s.date.day ≤ length
  time : ∀ t, s.time = some t → t.hour ≤ 23 ∧ t.minute ≤ 59 ∧ t.second ≤ 59

/-! ## Digits -/

theorem digit?_eq_some_iff {c : Char} {n : Nat} :
    digit? c = some n ↔ n < 10 ∧ c = Nat.digitChar n := by
  have hvalue (m : Nat) (hm : m < 10) : digit? (Nat.digitChar m) = some m := by
    rw [digit?, if_pos (Numeric.isDigit_iff.mpr ⟨m, hm, rfl⟩), Nat.toNat_digitChar_of_lt_ten hm,
      Nat.add_sub_cancel_left]
  constructor
  · intro h
    obtain ⟨hdigit, -⟩ := Option.ite_none_right_eq_some.mp h
    obtain ⟨m, hm, rfl⟩ := Numeric.isDigit_iff.mp hdigit
    obtain rfl := Option.some.inj ((hvalue m hm).symm.trans h)
    exact ⟨hm, rfl⟩
  · rintro ⟨hn, rfl⟩
    exact hvalue n hn

theorem twoDigits?_eq_some_iff {a b : Char} {n : Nat} :
    twoDigits? a b = some n ↔ n < 100 ∧ [a, b] = twoDigits n := by
  simp only [twoDigits?, Option.bind_eq_bind, Option.bind_eq_some_iff, digit?_eq_some_iff,
    Option.pure_def, Option.some.injEq, twoDigits, List.cons.injEq, and_true]
  constructor
  · rintro ⟨i, ⟨hi, rfl⟩, j, ⟨hj, rfl⟩, rfl⟩
    have hdiv : (i * 10 + j) / 10 = i := by omega
    have hmod : (i * 10 + j) % 10 = j := by omega
    exact ⟨by omega, by rw [hdiv], by rw [hmod]⟩
  · rintro ⟨hn, rfl, rfl⟩
    exact ⟨n / 10, ⟨by omega, rfl⟩, n % 10, ⟨by omega, rfl⟩, by omega⟩

theorem twoDigits?_twoDigits {n : Nat} (h : n < 100) :
    twoDigits? (Nat.digitChar (n / 10)) (Nat.digitChar (n % 10)) = some n :=
  twoDigits?_eq_some_iff.mpr ⟨h, rfl⟩

/-! ## Days and times -/

theorem Day.read?_eq_some_iff {cs : List Char} {d : Day} :
    Day.read? cs = some d ↔ d.Fits ∧ cs = d.chars := by
  constructor
  · intro h
    unfold Day.read? at h
    split at h
    next y₁ y₂ y₃ y₄ m₁ m₂ d₁ d₂ =>
      simp only [Option.bind_eq_bind, Option.bind_eq_some_iff, Option.pure_def, Option.some.injEq,
        twoDigits?_eq_some_iff] at h
      obtain ⟨century, ⟨hc, hcs⟩, year, ⟨hy, hys⟩, month, ⟨hm, hms⟩, day, ⟨hd, hds⟩, rfl⟩ := h
      have hdiv : (century * 100 + year) / 100 = century := by omega
      have hmod : (century * 100 + year) % 100 = year := by omega
      refine ⟨⟨by dsimp only; omega, hm, hd⟩, ?_⟩
      simp only [chars, hdiv, hmod, ← hcs, ← hys, ← hms, ← hds, List.cons_append, List.nil_append]
    · cases h
  · rintro ⟨⟨hy, hm, hd⟩, rfl⟩
    have hcentury : d.year / 100 < 100 := by omega
    have hyear : d.year % 100 < 100 := by omega
    have hsum : d.year / 100 * 100 + d.year % 100 = d.year := by omega
    simp only [chars, twoDigits, List.cons_append, List.nil_append, Day.read?,
      twoDigits?_twoDigits hcentury, twoDigits?_twoDigits hyear, twoDigits?_twoDigits hm,
      twoDigits?_twoDigits hd, Option.bind_eq_bind, Option.bind_some, Option.pure_def, hsum]

theorem isZulu_iff {cs : List Char} :
    isZulu cs = true ↔ cs = ['Z'] ∨ ∃ n < 1000, cs = '.' :: threeDigits n ++ ['Z'] := by
  constructor
  · intro h
    unfold isZulu at h
    split at h
    · exact .inl rfl
    next a b c =>
      simp only [Bool.and_eq_true, Numeric.isDigit_iff] at h
      obtain ⟨⟨⟨i, hi, rfl⟩, j, hj, rfl⟩, k, hk, rfl⟩ := h
      refine .inr ⟨i * 100 + j * 10 + k, by omega, ?_⟩
      have hdiv : (i * 100 + j * 10 + k) / 100 = i := by omega
      have htens : (i * 100 + j * 10 + k) % 100 / 10 = j := by omega
      have hones : (i * 100 + j * 10 + k) % 100 % 10 = k := by omega
      simp only [threeDigits, twoDigits, hdiv, htens, hones, List.cons_append, List.nil_append]
    · cases h
  · rintro (rfl | ⟨n, hn, rfl⟩)
    · rfl
    · have hdigit (i : Nat) (hi : i < 10) : (Nat.digitChar i).isDigit = true :=
        Numeric.isDigit_iff.mpr ⟨i, hi, rfl⟩
      simp only [threeDigits, twoDigits, List.cons_append, List.nil_append, isZulu,
        hdigit (n / 100) (by omega), hdigit (n % 100 / 10) (by omega),
        hdigit (n % 100 % 10) (by omega), Bool.and_self]

theorem Clock.read?_eq_some_iff {cs : List Char} {t : Clock} :
    Clock.read? cs = some t ↔
      t.Fits ∧ ∃ rest, isZulu rest = true ∧ cs = 'T' :: t.chars ++ rest := by
  constructor
  · intro h
    unfold Clock.read? at h
    split at h
    next h₁ h₂ m₁ m₂ s₁ s₂ rest =>
      simp only [Option.bind_eq_bind, Option.bind_eq_some_iff, Option.pure_def,
        Option.ite_none_right_eq_some, Option.some.injEq, twoDigits?_eq_some_iff] at h
      obtain ⟨hour, ⟨hh, hhs⟩, minute, ⟨hm, hms⟩, second, ⟨hs, hss⟩, hrest, rfl⟩ := h
      refine ⟨⟨hh, hm, hs⟩, rest, hrest, ?_⟩
      simp only [chars, ← hhs, ← hms, ← hss, List.cons_append, List.nil_append]
    · cases h
  · rintro ⟨⟨hh, hm, hs⟩, rest, hrest, rfl⟩
    simp only [chars, twoDigits, List.cons_append, List.nil_append, Clock.read?,
      twoDigits?_twoDigits hh, twoDigits?_twoDigits hm, twoDigits?_twoDigits hs,
      Option.bind_eq_bind, Option.bind_some, Option.pure_def, hrest, if_true]

/-! ## Stamps -/

/-- Behind a day stands nothing, or a time. -/
theorem Stamp.read?_append {v : String} {d : Day} (hd : d.Fits) {rest : List Char}
    (hv : v.toList = d.chars ++ rest) :
    Stamp.read? v =
      if rest = [] then some ⟨d, none⟩ else (Clock.read? rest).map fun t => ⟨d, some t⟩ := by
  have hlength : d.chars.length = 10 := rfl
  have hday : Day.read? d.chars = some d := Day.read?_eq_some_iff.mpr ⟨hd, rfl⟩
  rw [Stamp.read?, hv, ← hlength, List.take_left, List.drop_left, hday]
  cases rest with
  | nil => rfl
  | cons c rest =>
    rw [if_neg (List.cons_ne_nil c rest)]
    cases h : Clock.read? (c :: rest) <;> simp [h]

/-- What is read from a text is what it is written as. -/
theorem Stamp.read?_eq_some_iff {v : String} {s : Stamp} :
    Stamp.read? v = some s ↔ Written s v.toList := by
  constructor
  · intro h
    obtain ⟨d, hday, -⟩ := Option.bind_eq_some_iff.mp h
    obtain ⟨hd, htake⟩ := Day.read?_eq_some_iff.mp hday
    have hv : v.toList = d.chars ++ v.toList.drop 10 := by
      rw [← htake, List.take_append_drop]
    rw [read?_append hd hv] at h
    split at h
    next hdrop =>
      obtain rfl := Option.some.inj h
      rw [hv, hdrop, List.append_nil]
      exact .day hd
    · obtain ⟨t, ht, rfl⟩ := Option.map_eq_some_iff.mp h
      obtain ⟨ht, rest, hrest, hclock⟩ := Clock.read?_eq_some_iff.mp ht
      rw [hv, hclock, ← List.append_assoc]
      obtain rfl | ⟨n, hn, rfl⟩ := isZulu_iff.mp hrest
      · exact .moment hd ht
      · rw [← List.append_assoc]
        exact .fraction hd ht hn
  · intro h
    have hmoment (d : Day) (t : Clock) (hd : d.Fits) (ht : t.Fits) (rest : List Char)
        (hrest : isZulu rest = true) (hv : v.toList = d.chars ++ ('T' :: t.chars ++ rest)) :
        Stamp.read? v = some ⟨d, some t⟩ := by
      rw [read?_append hd hv, if_neg (by simp),
        Clock.read?_eq_some_iff.mpr ⟨ht, rest, hrest, rfl⟩]
      rfl
    generalize hv : v.toList = cs at h
    cases h with
    | day hd =>
      rw [read?_append hd (hv.trans (List.append_nil _).symm), if_pos rfl]
    | moment hd ht =>
      exact hmoment _ _ hd ht ['Z'] rfl (by rw [hv, List.append_assoc])
    | @fraction d t n hd ht hn =>
      exact hmoment d t hd ht ('.' :: threeDigits n ++ ['Z'])
        (isZulu_iff.mpr (.inr ⟨n, hn, rfl⟩)) (by simp only [hv, List.append_assoc])

/-! ## The calendar -/

theorem isLeap_iff (year : Nat) :
    isLeap year = true ↔ 4 ∣ year ∧ (100 ∣ year → 400 ∣ year) := by
  rw [isLeap, Bool.and_eq_true, Bool.or_eq_true, beq_iff_eq, bne_iff_ne, beq_iff_eq]
  omega

/-- The days of a month that there is. -/
theorem getElem?_monthLengths {year month : Nat} (h : 1 ≤ month) (h' : month ≤ 12) :
    (monthLengths year)[month - 1]? = some (monthLength year month) := by
  have hleap : (if 4 ∣ year ∧ (100 ∣ year → 400 ∣ year) then 29 else 28) =
      if isLeap year = true then 29 else 28 := by
    simp only [isLeap_iff]
  rw [monthLengths, hleap]
  obtain rfl | rfl | rfl | rfl | rfl | rfl | rfl | rfl | rfl | rfl | rfl | rfl :
    month = 1 ∨ month = 2 ∨ month = 3 ∨ month = 4 ∨ month = 5 ∨ month = 6 ∨ month = 7 ∨
      month = 8 ∨ month = 9 ∨ month = 10 ∨ month = 11 ∨ month = 12 := by omega
  all_goals rfl

/-- A month that there is not has no days. -/
theorem monthLength_eq_zero {year month : Nat} (h : month = 0 ∨ 12 < month) :
    monthLength year month = 0 := by
  unfold monthLength
  split
  all_goals omega

theorem Clock.isReal_iff (t : Clock) :
    t.IsReal ↔ t.hour ≤ 23 ∧ t.minute ≤ 59 ∧ t.second ≤ 59 := by
  unfold Clock.IsReal
  omega

theorem Stamp.isReal_iff (s : Stamp) : s.IsReal ↔ s.InCalendar := by
  constructor
  · rintro ⟨⟨hlow, hhigh⟩, htime⟩
    have hmonth : 1 ≤ s.date.month ∧ s.date.month ≤ 12 := by
      by_contra hnot
      rw [monthLength_eq_zero (by omega)] at hhigh
      omega
    exact {
      month := hmonth
      day := ⟨hlow, _, getElem?_monthLengths hmonth.1 hmonth.2, hhigh⟩
      time := fun t ht => t.isReal_iff.mp (htime t ht) }
  · rintro ⟨hmonth, ⟨hlow, length, hlength, hhigh⟩, htime⟩
    rw [getElem?_monthLengths hmonth.1 hmonth.2] at hlength
    obtain rfl := Option.some.inj hlength
    exact ⟨⟨hlow, hhigh⟩, fun t ht => t.isReal_iff.mpr (htime t ht)⟩

end Calendar

/-! ## Dates that are accepted -/

/-- **Which texts are dates.** A text is accepted, unchanged, exactly when it is written in one of
the shapes and its numbers are in the calendar and on the clock. A text that has a shape is refused
as unreal otherwise, a text that has none for its shape, and either error names the property and the
text. -/
theorem checkDate_outcomes (value property : String) :
    (checkDate value property = .ok value ↔
        ∃ s : Calendar.Stamp, s.Written value.toList ∧ s.InCalendar) ∧
      (checkDate value property = .error (.unreal property value) ↔
        ∃ s : Calendar.Stamp, s.Written value.toList ∧ ¬s.InCalendar) ∧
      (checkDate value property = .error (.badShape property value) ↔
        ¬∃ s : Calendar.Stamp, s.Written value.toList) := by
  simp only [← Calendar.Stamp.read?_eq_some_iff, ← Calendar.Stamp.isReal_iff]
  unfold checkDate
  cases Calendar.Stamp.read? value with
  | none => simp
  | some s => by_cases hreal : s.IsReal <;> simp [hreal]

/-- Of the years that end a century, 2000 is a leap year and 1900 is none. -/
example : checkDate "2000-02-29" "dateCreated" = .ok "2000-02-29" ∧
    checkDate "1900-02-29" "dateCreated" = .error (.unreal "dateCreated" "1900-02-29") :=
  ⟨rfl, rfl⟩

end NoteTools
