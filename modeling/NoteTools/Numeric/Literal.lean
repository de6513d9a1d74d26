/-!
# Decimal literals

A decimal literal is an optional sign, digits with an optional point among or beside them, and an
optional exponent. It is in range when its value rounds to a finite double: when its magnitude is
below `2^1024 - 2^970`, the midpoint between the largest double and the next power of two.

Main definitions:

* `Literal.read?`: the literal that a text spells;
* `Literal.inRange`: the bound on its magnitude, in exact arithmetic;
* `isFiniteNumber`: a text that spells a literal in range.
-/

namespace NoteTools.Numeric

/-- The value of a list of decimal digits. -/
def digitsValue (cs : List Char) : Nat :=
  cs.foldl (fun n c => n * 10 + (c.toNat - 48)) 0

theorem digitsValue_toDigits (n : Nat) : digitsValue (Nat.toDigits 10 n) = n := by
  have h := Nat.ofDigitChars_ten_toDigits (n := n)
  rw [Nat.ofDigitChars_eq_foldl] at h
  rw [digitsValue]
  simpa [Nat.mul_comm] using h

/-- A decimal literal, by its digits. -/
structure Literal where
  /-- A minus sign stands in front. -/
  negative : Bool
  /-- The digits before the point. -/
  whole : List Char
  /-- The digits after the point. -/
  fraction : List Char
  /-- The exponent, zero when none is written. -/
  exponent : Int
  deriving DecidableEq, Repr

namespace Literal

/-- An optional sign: whether it is a minus, and what follows. -/
def takeSign : List Char → Bool × List Char
  | '-' :: cs => (true, cs)
  | '+' :: cs => (false, cs)
  | cs => (false, cs)

/-- An exponent, which must take up the rest of the text. -/
def readExponent? : List Char → Option Int
  | [] => some 0
  | e :: cs =>
    if e = 'e' ∨ e = 'E' then
      let (minus, digits) := takeSign cs
      if !digits.isEmpty && digits.all Char.isDigit then
        let n : Int := digitsValue digits
        some (if minus then -n else n)
      else none
    else none

/-- The literal that a text spells. -/
def read? (cs : List Char) : Option Literal :=
  let (negative, cs) := takeSign cs
  let whole := cs.takeWhile Char.isDigit
  let rest := cs.dropWhile Char.isDigit
  let (fraction, rest) := match rest with
    | '.' :: after => (after.takeWhile Char.isDigit, after.dropWhile Char.isDigit)
    | _ => ([], rest)
  if whole.isEmpty && fraction.isEmpty then none
  else (readExponent? rest).map fun exponent => { negative, whole, fraction, exponent }

/-- The digits without the point. -/
def digits (l : Literal) : List Char :=
  l.whole ++ l.fraction

/-- The digits as a number. -/
def significand (l : Literal) : Nat :=
  digitsValue l.digits

/-- The power of ten that the significand is scaled by. -/
def scale (l : Literal) : Int :=
  l.exponent - l.fraction.length

/-- The magnitude from which on a value no longer rounds to a finite double. -/
def bound : Nat :=
  Nat.pow 2 1024 - Nat.pow 2 970

/-- The magnitude is below `bound`. The first two tests settle the values whose power of ten would
be too large to write out. -/
def inRange (l : Literal) : Bool :=
  let size : Int := (l.digits.dropWhile (· == '0')).length + l.scale
  if l.significand = 0 ∨ size < 0 then true
  else if 310 < size then false
  else match l.scale with
    | .ofNat e => l.significand * Nat.pow 10 e < bound
    | .negSucc e => l.significand < bound * Nat.pow 10 (e + 1)

end Literal

/-- A text that spells a decimal literal in range. -/
def isFiniteNumber (s : String) : Bool :=
  match Literal.read? s.toList with
  | some l => l.inRange
  | none => false

end NoteTools.Numeric
