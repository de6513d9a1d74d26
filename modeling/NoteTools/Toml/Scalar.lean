import NoteTools.Calendar.Stamp
import NoteTools.Numeric.Digits
import NoteTools.Numeric.Literal
import NoteTools.Text.Split
import NoteTools.Toml.Value

/-!
# Bare words of a settings file

A value that is no text, array or table is a bare word: a truth value, a whole number in one of four
radixes, a number with a point or an exponent, a day, a time of day, or both. Underscores may stand
between digits, and a decimal number has no zero in front of other digits.

Main definitions:

* `readInt?`, `readFloat?`, `isMoment`: the three kinds;
* `readWord?`: the value that a word spells.
-/

namespace NoteTools.Toml

open Numeric Calendar Text

/-! ## Numbers -/

/-- Digits without the underscores between them. -/
def ungroup? (isDigit : Char → Bool) : List Char → Option (List Char)
  | [] => none
  | [d] => if isDigit d then some [d] else none
  | d :: '_' :: rest => if isDigit d then (ungroup? isDigit rest).map (d :: ·) else none
  | d :: rest => if isDigit d then (ungroup? isDigit rest).map (d :: ·) else none

/-- Decimal digits without a zero in front of others. -/
def ungroupDecimal? (cs : List Char) : Option (List Char) :=
  (ungroup? Char.isDigit cs).filter fun ds => ds.length = 1 ∨ ds.head? ≠ some '0'

/-- The whole number of grouped digits of a radix. -/
def readRadix? (radix : Nat) (cs : List Char) : Option Value := do
  let ds ← ungroup? (fun c => (digit? radix c).isSome) cs
  let n ← readDigits? radix ds
  return .int n

/-- The whole number that a word spells. -/
def readInt? (cs : List Char) : Option Value :=
  match cs with
  | '0' :: 'x' :: rest => readRadix? 16 rest
  | '0' :: 'o' :: rest => readRadix? 8 rest
  | '0' :: 'b' :: rest => readRadix? 2 rest
  | _ => do
    let (negative, rest) := Literal.takeSign cs
    let n : Int := digitsValue (← ungroupDecimal? rest)
    return .int (if negative then -n else n)

/-- The letter of an exponent. -/
def isExponentLetter (c : Char) : Bool :=
  c == 'e' || c == 'E'

/-- The digits behind a point, and the rest from the exponent on. -/
def readFraction? : List Char → Option (List Char × List Char)
  | '.' :: rest => do
    let (fraction, rest) := breakAt isExponentLetter rest
    return (← ungroup? Char.isDigit fraction, rest)
  | rest => some ([], rest)

/-- The exponent, zero when there is none. -/
def readExponent? : List Char → Option Int
  | [] => some 0
  | _ :: rest => do
    let (negative, rest) := Literal.takeSign rest
    let n : Int := digitsValue (← ungroup? Char.isDigit rest)
    return if negative then -n else n

/-- The number with a point or an exponent that a word spells. -/
def readFloat? (cs : List Char) : Option Value := do
  let (negative, body) := Literal.takeSign cs
  if body = ['i', 'n', 'f'] ∨ body = ['n', 'a', 'n'] then return .float true
  let (whole, rest) := breakAt (fun c => c == '.' || isExponentLetter c) body
  if rest = [] then none
  let whole ← ungroupDecimal? whole
  let (fraction, rest) ← readFraction? rest
  let exponent ← readExponent? rest
  let l : Literal := { negative, whole, fraction, exponent }
  return .float l.inRange

/-! ## Days and times -/

/-- A number of two digits below a bound. -/
def isBelow (bound : Nat) (a b : Char) : Bool :=
  (twoDigits? a b).any (· < bound)

/-- Seconds and a fraction of them, and the rest. -/
def dropSeconds? : List Char → Option (List Char)
  | ':' :: a :: b :: '.' :: rest =>
    let (fraction, rest) := breakAt (fun c => !c.isDigit) rest
    if isBelow 61 a b && !fraction.isEmpty then some rest else none
  | ':' :: a :: b :: rest => if isBelow 61 a b then some rest else none
  | rest => some rest

/-- A time of day, and the rest. -/
def dropTime? : List Char → Option (List Char)
  | a :: b :: ':' :: c :: d :: rest =>
    if isBelow 24 a b && isBelow 60 c d then dropSeconds? rest else none
  | _ => none

/-- A distance from UTC. -/
def isOffset : List Char → Bool
  | ['Z'] | ['z'] => true
  | [sign, a, b, ':', c, d] => (sign == '+' || sign == '-') && isBelow 24 a b && isBelow 60 c d
  | _ => false

/-- A day that exists. -/
def isDay (cs : List Char) : Bool :=
  (Day.read? cs).any fun d => d.IsReal

/-- A day, a time of day, or a day and a time with or without a distance from UTC. -/
def isMoment (cs : List Char) : Bool :=
  if isDay (cs.take 10) then
    match cs.drop 10 with
    | [] => true
    | c :: time =>
      (c == 'T' || c == 't' || c == ' ')
        && (dropTime? time).any fun rest => rest.isEmpty || isOffset rest
  else (dropTime? cs).any List.isEmpty

/-! ## Words -/

/-- The value that a word spells. -/
def readWord? (cs : List Char) : Option Value :=
  if cs = ['t', 'r', 'u', 'e'] then some (.bool true)
  else if cs = ['f', 'a', 'l', 's', 'e'] then some (.bool false)
  else (readInt? cs).or ((readFloat? cs).or (if isMoment cs then some .moment else none))

end NoteTools.Toml
