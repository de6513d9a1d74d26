/-!
# Digits

Natural numbers written in digits of a radix up to sixteen.

Main definitions:

* `digit?`: the value of a digit;
* `readDigits?`: the number that a list of digits spells.
-/

namespace NoteTools.Numeric

/-- The value of a digit of a radix of at most sixteen, whatever its case. -/
def digit? (radix : Nat) (c : Char) : Option Nat :=
  let n :=
    if c.isDigit then c.toNat - 48
    else if 'a' ≤ c ∧ c ≤ 'f' then c.toNat - 87
    else if 'A' ≤ c ∧ c ≤ 'F' then c.toNat - 55
    else radix
  if n < radix then some n else none

/-- The number that a list of digits spells, the first one being the most significant. An empty list
spells none. -/
def readDigits? (radix : Nat) (cs : List Char) : Option Nat :=
  if cs.isEmpty then none
  else cs.foldlM (fun n c => (digit? radix c).map (n * radix + ·)) 0

end NoteTools.Numeric
