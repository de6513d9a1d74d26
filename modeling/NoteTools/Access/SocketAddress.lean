import NoteTools.Numeric.Digits
import NoteTools.Text.Split

/-!
# Socket addresses

A socket address is a host address and a number of 16 bits that tells the sockets of the host
apart: `a.b.c.d:number`, or `[groups]:number` with eight groups of up to four hexadecimal digits. A
double colon stands for the groups that are left out, at least one; the last two groups may be
written as four octets, and a percent sign and a number may follow them as a scope.

Main definitions:

* `HostAddress`, `HostAddress.isLoopback`;
* `SocketAddress`, `SocketAddress.read?`.
-/

namespace NoteTools.Access

open Numeric Text

/-- The address of a host. -/
inductive HostAddress where
  /-- Four octets. -/
  | v4 (a b c d : UInt8)
  /-- A number of 128 bits. -/
  | v6 (bits : BitVec 128)
  deriving DecidableEq, Repr

/-- The addresses that never leave the machine. -/
def HostAddress.isLoopback : HostAddress → Bool
  | .v4 a _ _ _ => a == 127
  | .v6 bits => bits == 1

/-- The address of a socket. -/
structure SocketAddress where
  /-- The address of the host. -/
  host : HostAddress
  /-- The number of the socket on its host. -/
  number : UInt16
  /-- The scope of an address of groups. -/
  scope : UInt32 := 0
  deriving DecidableEq, Repr

/-! ## Parts -/

/-- An octet in at most three decimal digits, without a zero in front of others. -/
def readOctet? (cs : List Char) : Option UInt8 := do
  let n ← readDigits? 10 cs
  if cs.length ≤ 3 ∧ (cs.length = 1 ∨ cs.head? ≠ some '0') ∧ n < UInt8.size then return .ofNat n
  else none

/-- Four octets with points between them. -/
def readOctets? (cs : List Char) : Option (UInt8 × UInt8 × UInt8 × UInt8) :=
  match splitOn (· == '.') cs with
  | [a, b, c, d] => do
    return (← readOctet? a, ← readOctet? b, ← readOctet? c, ← readOctet? d)
  | _ => none

/-- The number of a socket in decimal digits, with any zeros in front. -/
def readNumber? (cs : List Char) : Option UInt16 := do
  let n ← readDigits? 10 cs
  if n < UInt16.size then return .ofNat n else none

/-- A scope in decimal digits, behind a percent sign; zero when there is none. -/
def readScope? : List Char → Option UInt32
  | [] => some 0
  | '%' :: cs => do
    let n ← readDigits? 10 cs
    if n < UInt32.size then return .ofNat n else none
  | _ => none

/-! ## Groups -/

/-- A group of at most four hexadecimal digits. -/
def readGroup? (cs : List Char) : Option Nat :=
  if cs.length ≤ 4 then readDigits? 16 cs else none

/-- The two groups that four octets make. -/
def octetGroups (a b c d : UInt8) : List Nat :=
  [a.toNat * 256 + b.toNat, c.toNat * 256 + d.toNat]

/-- The groups of a list of words, of which the last one may be four octets. -/
def readGroups? : List (List Char) → Option (List Nat)
  | [] => some []
  | [word] =>
    ((readGroup? word).map fun g => [g]).or
      ((readOctets? word).map fun (a, b, c, d) => octetGroups a b c d)
  | word :: words => do
    let g ← readGroup? word
    return g :: (← readGroups? words)

/-- The words between colons; an empty text has none. -/
def words (cs : List Char) : List (List Char) :=
  if cs.isEmpty then [] else splitOn (· == ':') cs

/-- The texts before and behind the first double colon. -/
def splitAtGap? : List Char → Option (List Char × List Char)
  | [] => none
  | ':' :: ':' :: rest => some ([], rest)
  | c :: cs => (splitAtGap? cs).map fun (front, back) => (c :: front, back)

/-- The eight groups of an address. -/
def readAllGroups? (cs : List Char) : Option (List Nat) :=
  match splitAtGap? cs with
  | none => (readGroups? (words cs)).filter fun gs => gs.length = 8
  | some (front, back) => do
    let front ← (words front).mapM readGroup?
    let back ← readGroups? (words back)
    let missing := 8 - (front.length + back.length)
    if missing = 0 then none else return front ++ List.replicate missing 0 ++ back

/-- The number that groups make, the first one being the most significant. -/
def ofGroups (gs : List Nat) : BitVec 128 :=
  .ofNat 128 (gs.foldl (fun n g => n * UInt16.size + g) 0)

/-! ## Addresses -/

namespace SocketAddress

/-- The address whose groups stand between brackets, from behind the opening one. -/
def readBracketed? (cs : List Char) : Option SocketAddress := do
  let (inner, rest) := breakAt (· == ']') cs
  let (address, scope) := breakAt (· == '%') inner
  match rest with
  | ']' :: ':' :: number =>
    return {
      host := .v6 (ofGroups (← readAllGroups? address))
      number := ← readNumber? number
      scope := ← readScope? scope }
  | _ => none

/-- The address of four octets and a number. -/
def readPlain? (cs : List Char) : Option SocketAddress := do
  let (host, rest) := breakAt (· == ':') cs
  match rest with
  | ':' :: number =>
    let (a, b, c, d) ← readOctets? host
    return { host := .v4 a b c d, number := ← readNumber? number }
  | _ => none

/-- The address that a text spells. -/
def read? (s : String) : Option SocketAddress :=
  match s.toList with
  | '[' :: cs => readBracketed? cs
  | cs => readPlain? cs

end SocketAddress

end NoteTools.Access
