/-!
# Doubles in exact arithmetic

A finite double is a sign, a significand and a power of two. Rounding to the nearest double, ties to
the even significand, is done on fractions of natural numbers; the shortest decimal that rounds back
is found by trying one digit, two digits, and so on.

Main definitions:

* `Binary64.nearest?`: the double nearest to a fraction, if it is not too large;
* `Binary64.shortest`: the fewest decimal digits that round back, and their power of ten;
* `Binary64.text`: the written form, positional from `1e-5` up to `1e16`.
-/

namespace NoteTools.Numeric

/-- A finite double: the significand times the power of two, with a sign. The significand is below
`2^53`, and the exponent is between -1074 and 971. -/
structure Binary64 where
  /-- The sign bit. -/
  negative : Bool
  /-- The significand, a whole number. -/
  significand : Nat
  /-- The power of two. -/
  exponent : Int
  deriving DecidableEq, Repr

namespace Binary64

/-- A quotient rounded to the nearest whole number, a half to the even neighbour. -/
def roundHalfEven (num den : Nat) : Nat :=
  let q := num / den
  let r := num % den
  if 2 * r < den then q else if den < 2 * r then q + 1 else q + q % 2

/-- A fraction as numerator and denominator, after scaling by a power of a base. -/
def scaled (base : Nat) (num den : Nat) : Int → Nat × Nat
  | .ofNat e => (num * Nat.pow base e, den)
  | .negSucc e => (num, den * Nat.pow base (e + 1))

/-- The whole part of the binary logarithm of a positive fraction. -/
def log2Ratio (num den : Nat) : Int :=
  let e : Int := (Nat.log2 num : Int) - Nat.log2 den
  let (n, d) := scaled 2 num den (-e)
  if d ≤ n then e else e - 1

/-- The significand and exponent of the double nearest to a fraction; none when the fraction is at
least the midpoint above the largest double. -/
def nearest? (num den : Nat) : Option (Nat × Int) :=
  if num = 0 then some (0, 0)
  else
    let q := max (log2Ratio num den - 52) (-1074)
    let (n, d) := scaled 2 num den (-q)
    let m := roundHalfEven n d
    let (m, q) := if m = Nat.pow 2 53 then (Nat.pow 2 52, q + 1) else (m, q)
    if 971 < q then none else some (m, q)

/-- The magnitude as a fraction. -/
def magnitude (x : Binary64) : Nat × Nat :=
  scaled 2 x.significand 1 x.exponent

/-- The whole part of the decimal logarithm of a positive fraction, found from its size in bits. -/
def log10Ratio (num den : Nat) : Int :=
  let guess : Int := log2Ratio num den * 30103 / 100000
  let fits (e : Int) : Bool := let (n, d) := scaled 10 num den (-e); d ≤ n
  if fits (guess + 1) then guess + 1 else if fits guess then guess else guess - 1

/-- The digits of a positive value on the grid of a power of ten, when one of the two neighbours on
the grid rounds back to the value; of two such neighbours the nearer. -/
def onGrid? (num den : Nat) (target : Option (Nat × Int)) (e : Int) : Option Nat :=
  let (n, d) := scaled 10 num den (-e)
  let low := n / d
  let back (k : Nat) : Bool := let (a, b) := scaled 10 k 1 e; nearest? a b == target
  let nearer := roundHalfEven n d
  let other := if nearer = low then low + 1 else low
  if back nearer then some nearer else if back other then some other else none

/-- Tries grids of finer and finer powers of ten. -/
def search (num den : Nat) (target : Option (Nat × Int)) (e : Int) : Nat → Nat × Int
  | 0 => (num / den, 0)
  | steps + 1 =>
    match onGrid? num den target e with
    | some k => (k, e)
    | none => search num den target (e - 1) steps

/-- Removes the zeros at the end of a number, and adds them to the power of ten. -/
def dropZeros (k : Nat) (e : Int) : Nat → Nat × Int
  | 0 => (k, e)
  | steps + 1 => if k % 10 = 0 ∧ k ≠ 0 then dropZeros (k / 10) (e + 1) steps else (k, e)

/-- The fewest decimal digits that round back to a double, and the power of ten they count. -/
def shortest (x : Binary64) : Nat × Int :=
  let (num, den) := x.magnitude
  if num = 0 then (0, 0)
  else
    let (k, e) := search num den (nearest? num den) (log10Ratio num den) 18
    dropZeros k e 20

/-- The written form: positional while the decimal point falls within sixteen places before or five
places after the front of the digits, otherwise with an exponent. -/
def text (x : Binary64) : String :=
  let sign := if x.negative then "-" else ""
  let (k, e) := x.shortest
  let digits := toString k
  let size : Int := digits.length
  let point := size + e
  let zeros (n : Int) : String := String.ofList (List.replicate n.toNat '0')
  let body :=
    if k = 0 then "0.0"
    else if 0 ≤ e ∧ point ≤ 16 then digits ++ zeros e ++ ".0"
    else if 0 < point ∧ point ≤ 16 then
      let cs := digits.toList
      String.ofList (cs.take point.toNat ++ '.' :: cs.drop point.toNat)
    else if -5 < point ∧ point ≤ 0 then "0." ++ zeros (-point) ++ digits
    else
      let cs := digits.toList
      let front := if cs.length = 1 then cs else cs.take 1 ++ '.' :: cs.drop 1
      String.ofList front ++ "e" ++ toString (point - 1)
  sign ++ body

end Binary64

end NoteTools.Numeric
