/-!
# Days and moments

A stamp is a day, `YYYY-MM-DD`, or a moment in UTC, `YYYY-MM-DDThh:mm:ss` with an optional fraction
of three digits and a final `Z`. It is real when the day exists in the Gregorian calendar, extended
to all years from 0000 to 9999, and the time is on a clock without leap seconds.

Main definitions:

* `Stamp.read?`: the stamp that a text has the shape of;
* `Stamp.IsReal`: the day exists, and so does the time.
-/

namespace NoteTools.Calendar

/-- A day by its numbers. -/
structure Day where
  year : Nat
  month : Nat
  day : Nat
  deriving DecidableEq, Repr

/-- A time of day by its numbers. -/
structure Clock where
  hour : Nat
  minute : Nat
  second : Nat
  deriving DecidableEq, Repr

/-- A day, or a moment of a day. -/
structure Stamp where
  /-- The day. -/
  date : Day
  /-- The time of day. -/
  time : Option Clock
  deriving DecidableEq, Repr

/-! ## The calendar -/

/-- A year with a day on 29 February. -/
def isLeap (year : Nat) : Bool :=
  year % 4 == 0 && (year % 100 != 0 || year % 400 == 0)

/-- The number of days of a month, zero when there is no such month. -/
def monthLength (year month : Nat) : Nat :=
  match month with
  | 1 | 3 | 5 | 7 | 8 | 10 | 12 => 31
  | 4 | 6 | 9 | 11 => 30
  | 2 => if isLeap year then 29 else 28
  | _ => 0

/-- The day exists. -/
def Day.IsReal (d : Day) : Prop :=
  1 ≤ d.day ∧ d.day ≤ monthLength d.year d.month

instance (d : Day) : Decidable d.IsReal := by
  unfold Day.IsReal; infer_instance

/-- The time is on the clock. -/
def Clock.IsReal (t : Clock) : Prop :=
  t.hour < 24 ∧ t.minute < 60 ∧ t.second < 60

instance (t : Clock) : Decidable t.IsReal := by
  unfold Clock.IsReal; infer_instance

/-- The day exists, and so does the time if there is one. -/
def Stamp.IsReal (s : Stamp) : Prop :=
  s.date.IsReal ∧ ∀ t ∈ s.time, t.IsReal

instance (s : Stamp) : Decidable s.IsReal := by
  unfold Stamp.IsReal; infer_instance

/-! ## The shapes -/

/-- The value of a decimal digit. -/
def digit? (c : Char) : Option Nat :=
  if c.isDigit then some (c.toNat - 48) else none

/-- The number of two digits. -/
def twoDigits? (a b : Char) : Option Nat := do
  return (← digit? a) * 10 + (← digit? b)

/-- The day that ten characters spell. -/
def Day.read? (cs : List Char) : Option Day :=
  match cs with
  | [y₁, y₂, y₃, y₄, '-', m₁, m₂, '-', d₁, d₂] => do
    let century ← twoDigits? y₁ y₂
    let year ← twoDigits? y₃ y₄
    let month ← twoDigits? m₁ m₂
    let day ← twoDigits? d₁ d₂
    return ⟨century * 100 + year, month, day⟩
  | _ => none

/-- What may stand behind the seconds: nothing or a fraction of three digits, and `Z`. -/
def isZulu : List Char → Bool
  | ['Z'] => true
  | ['.', a, b, c, 'Z'] => a.isDigit && b.isDigit && c.isDigit
  | _ => false

/-- The time that the characters behind the day spell. -/
def Clock.read? (cs : List Char) : Option Clock :=
  match cs with
  | 'T' :: h₁ :: h₂ :: ':' :: m₁ :: m₂ :: ':' :: s₁ :: s₂ :: rest => do
    let hour ← twoDigits? h₁ h₂
    let minute ← twoDigits? m₁ m₂
    let second ← twoDigits? s₁ s₂
    if isZulu rest then return ⟨hour, minute, second⟩ else none
  | _ => none

/-- The stamp that a text has the shape of. -/
def Stamp.read? (s : String) : Option Stamp := do
  let cs := s.toList
  let date ← Day.read? (cs.take 10)
  match cs.drop 10 with
  | [] => return ⟨date, none⟩
  | rest => return ⟨date, some (← Clock.read? rest)⟩

end NoteTools.Calendar
