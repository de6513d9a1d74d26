import NoteTools.Json.Scan
import NoteTools.Numeric.Literal

/-!
# Reading JSON text

The reader takes a text as a list of pieces, each a character or a mark for malformed octets, and
gives its scan. It never fails: where the grammar is left, the scan stops.

A number without point and exponent is whole when it fits 64 bits, except for minus zero. Any other
number is a double: its digits are read as a whole number of at most 64 bits, the digits that do not
fit are dropped, and the result is multiplied or divided by a power of ten, with a rounding at each
step.

Main definitions:

* `Piece`, `readText`: the inside of a text;
* `readNumber`, `readValue`: a number and a value;
* `Document`: the scan of a whole text, and whether more than blanks follows it.
-/

namespace NoteTools.Json

open Numeric

/-- A character of the text, or a mark for malformed octets. -/
abbrev Glyph := Option Char

/-- The glyphs of a text. -/
def glyphs (s : String) : List Glyph :=
  s.toList.map some

/-- The blanks between tokens. -/
def isGap (g : Glyph) : Bool :=
  g == some ' ' || g == some '\n' || g == some '\t' || g == some '\r'

/-- The rest of the text from the next token on. -/
def skipGap (gs : List Glyph) : List Glyph :=
  gs.dropWhile isGap

/-! ## Texts -/

/-- A part of the inside of a text. -/
inductive Piece where
  /-- A character, written as itself or escaped by a letter. -/
  | char (c : Char)
  /-- A unit of sixteen bits, written with four hexadecimal digits. -/
  | unit (n : Nat)
  /-- Malformed octets. -/
  | bad
  deriving DecidableEq, Repr

/-- How the inside of a text ends. -/
inductive TextEnd where
  /-- With the closing quote, before the rest. -/
  | closed (rest : List Glyph)
  /-- With a fault, which may lie in the digits of a unit. -/
  | stopped (f : Fault) (inUnit : Bool)
  deriving DecidableEq, Repr

/-- The value of a hexadecimal digit. -/
def hexValue? (g : Glyph) : Option Nat :=
  match g with
  | none => none
  | some c =>
    if '0' ≤ c ∧ c ≤ '9' then some (c.toNat - 48)
    else if 'a' ≤ c ∧ c ≤ 'f' then some (c.toNat - 87)
    else if 'A' ≤ c ∧ c ≤ 'F' then some (c.toNat - 55)
    else none

/-- The unit that four digits spell. -/
def unitValue? (a b c d : Glyph) : Option Nat := do
  let a ← hexValue? a
  let b ← hexValue? b
  let c ← hexValue? c
  let d ← hexValue? d
  return ((a * 16 + b) * 16 + c) * 16 + d

/-- The fault of digits that spell no unit: the text ends if fewer than four octets are left. -/
def unitFault (gs : List Glyph) : Fault :=
  let octets := gs.foldl (fun n g => n + (g.map Char.utf8Size).getD 1) 0
  if octets < 4 then .endInText else .badEscape

/-- The character that a letter stands for behind a backslash. -/
def escapeLetter? : Char → Option Char
  | '"' => some '"'
  | '\\' => some '\\'
  | '/' => some '/'
  | 'b' => some '\x08'
  | 'f' => some '\x0c'
  | 'n' => some '\n'
  | 'r' => some '\r'
  | 't' => some '\t'
  | _ => none

/-- The pieces of the inside of a text, and how it ends. -/
def pieces : List Glyph → List Piece × TextEnd
  | [] => ([], .stopped .endInText false)
  | none :: gs => let (ps, ending) := pieces gs; (.bad :: ps, ending)
  | some '"' :: gs => ([], .closed gs)
  | [some '\\'] => ([], .stopped .endInText false)
  | some '\\' :: some 'u' :: a :: b :: c :: d :: gs =>
    match unitValue? a b c d with
    | some n => let (ps, ending) := pieces gs; (.unit n :: ps, ending)
    | none => ([], .stopped (unitFault (a :: b :: c :: d :: gs)) true)
  | some '\\' :: some 'u' :: gs => ([], .stopped (unitFault gs) true)
  | some '\\' :: some letter :: gs =>
    match escapeLetter? letter with
    | some c => let (ps, ending) := pieces gs; (.char c :: ps, ending)
    | none => ([], .stopped .badEscape false)
  | some '\\' :: none :: _ => ([], .stopped .badEscape false)
  | some c :: gs =>
    if c.toNat < 0x20 then ([], .stopped .controlCharacter false)
    else let (ps, ending) := pieces gs; (.char c :: ps, ending)

/-- A unit that starts a pair. -/
def isHigh (n : Nat) : Bool := 0xD800 ≤ n && n ≤ 0xDBFF

/-- A unit that ends a pair. -/
def isLow (n : Nat) : Bool := 0xDC00 ≤ n && n ≤ 0xDFFF

/-- The characters of the pieces; units that are halves of pairs have to meet. -/
def joinPieces : List Piece → Except Fault (List Char)
  | [] => .ok []
  | .char c :: ps => do return c :: (← joinPieces ps)
  | .bad :: ps => do return '\uFFFD' :: (← joinPieces ps)
  | .unit n :: .unit m :: ps =>
    if isLow n then .error .loneSurrogate
    else if isHigh n then
      if isLow m then do
        return Char.ofNat (0x10000 + (n - 0xD800) * 0x400 + (m - 0xDC00)) :: (← joinPieces ps)
      else .error .loneSurrogate
    else do return Char.ofNat n :: (← joinPieces (.unit m :: ps))
  | .unit n :: ps =>
    if isLow n then .error .loneSurrogate
    else if isHigh n then .error .halfPair
    else do return Char.ofNat n :: (← joinPieces ps)

/-- A text as read from behind its opening quote. -/
inductive TextScan where
  /-- A closed text, which may have a flaw, and the rest. -/
  | done (text : Except Fault String) (rest : List Glyph)
  /-- The scan ends inside the text. -/
  | stopped (s : Stop)

/-- The pieces end with the first half of a pair. -/
def endsHalf (ps : List Piece) : Bool :=
  match ps.getLast? with
  | some (.unit n) => isHigh n
  | _ => false

/-- The fault of a reader at a stop: a surrogate fault before the stop comes first, and half a pair
just before the stop counts unless the stop is where its other half would be. -/
def stoppedFault (ps : List Piece) (f : Fault) (inUnit : Bool) : Fault :=
  if endsHalf ps ∧ (joinPieces ps.dropLast).isOk then
    if f = .endInText ∨ inUnit then f else .halfPair
  else match joinPieces ps with
    | .error e => e
    | .ok _ => f

/-- Reads a text from behind its opening quote. -/
def readText (gs : List Glyph) : TextScan :=
  match pieces gs with
  | (ps, .closed rest) =>
    .done (do
      let cs ← joinPieces ps
      if ps.contains .bad then .error .badOctets else .ok (String.ofList cs)) rest
  | (ps, .stopped f inUnit) => .stopped ⟨stoppedFault ps f inUnit, f⟩

/-! ## Numbers -/

/-- The largest whole number of 64 bits. -/
def maxWord : Nat := 0xFFFFFFFFFFFFFFFF

/-- The digits at the front. -/
def takeDigits : List Glyph → List Char × List Glyph
  | some c :: gs =>
    if c.isDigit then let (ds, rest) := takeDigits gs; (c :: ds, rest) else ([], some c :: gs)
  | gs => ([], gs)

/-- Appends digits to a whole number as long as it fits 64 bits: the number, and the digits left. -/
def gather (n : Nat) : List Char → Nat × List Char
  | [] => (n, [])
  | d :: ds =>
    let next := n * 10 + (d.toNat - 48)
    if next ≤ maxWord then gather next ds else (n, d :: ds)

/-- The value of a double as a fraction. -/
def ratio (x : Nat × Int) : Nat × Nat :=
  Binary64.scaled 2 x.1 1 x.2

/-- The double nearest to a power of ten that is in range. -/
def powerOfTen (e : Nat) : Nat × Nat :=
  ((Binary64.nearest? (Nat.pow 10 e) 1).map ratio).getD (1, 1)

/-- Divides a double by a power of ten, at most by `10^308` in one step. -/
def divideByPower (x : Nat × Int) (e : Nat) : Nat → Nat × Int
  | 0 => (0, 0)
  | steps + 1 =>
    let (n, d) := ratio x
    let (p, r) := powerOfTen (min e 308)
    let quotient := (Binary64.nearest? (n * r) (d * p)).getD (0, 0)
    if e ≤ 308 then quotient else divideByPower quotient (e - 308) steps

/-- The double of a whole number times a power of ten. -/
def scaleByPower (negative : Bool) (significand : Nat) (e : Int) : Except Fault Number :=
  let x := (Binary64.nearest? significand 1).getD (0, 0)
  let result : Option (Nat × Int) :=
    match e with
    | .ofNat e =>
      if significand = 0 then some (0, 0)
      else if 308 < e then none
      else
        let (n, d) := ratio x
        let (p, r) := powerOfTen e
        Binary64.nearest? (n * p) (d * r)
    | .negSucc e => some (divideByPower x (e + 1) 4)
  match result with
  | some (m, q) => .ok (.real ⟨negative, m, q⟩)
  | none => .error .numberTooLarge

/-- The number that the parts of a literal spell. -/
def numberValue (negative : Bool) (whole : List Char) (fraction exponent : Option (List Char))
    (exponentMinus : Bool) : Except Fault Number :=
  let (n, excess) := gather 0 whole
  match fraction, exponent, excess with
  | none, none, [] =>
    if !negative then .ok (.int n)
    else if 0 < n ∧ n ≤ 0x8000000000000000 then .ok (.int (-(n : Int)))
    else scaleByPower true n 0
  | _, _, _ =>
    let fraction := fraction.getD []
    let (m, left) := gather n fraction
    let shift : Int := excess.length - (fraction.length - left.length : Nat)
    let power : Int := digitsValue (exponent.getD [])
    scaleByPower negative m (shift + if exponentMinus then -power else power)

/-- The stop at a missing digit. -/
def missingDigit (gs : List Glyph) : Scan :=
  .stop ⟨if gs.isEmpty then .endInValue else .badNumber, .badNumber⟩

/-- Reads an exponent behind its letter, and finishes the number. -/
def readExponent (negative : Bool) (whole : List Char) (fraction : Option (List Char))
    (gs : List Glyph) : Scan × Option (List Glyph) :=
  let (minus, gs) := match gs with
    | some '-' :: rest => (true, rest)
    | some '+' :: rest => (false, rest)
    | _ => (false, gs)
  match takeDigits gs with
  | ([], rest) => (missingDigit rest, none)
  | (digits, rest) =>
    match numberValue negative whole fraction (some digits) minus with
    | .ok n => (.number n, some rest)
    | .error f => (.flaw f, some rest)

/-- Reads what may follow the whole part and the fraction, and finishes the number. -/
def readScale (negative : Bool) (whole : List Char) (fraction : Option (List Char))
    (gs : List Glyph) : Scan × Option (List Glyph) :=
  match gs with
  | some 'e' :: rest => readExponent negative whole fraction rest
  | some 'E' :: rest => readExponent negative whole fraction rest
  | _ =>
    match numberValue negative whole fraction none false with
    | .ok n => (.number n, some gs)
    | .error f => (.flaw f, some gs)

/-- Reads a number from its first digit on. -/
def readNumber (negative : Bool) (gs : List Glyph) : Scan × Option (List Glyph) :=
  match takeDigits gs with
  | ([], rest) => (missingDigit rest, none)
  | ('0' :: _ :: _, _) => (.stop (.both .badNumber), none)
  | (whole, some '.' :: rest) =>
    match takeDigits rest with
    | ([], rest) => (missingDigit rest, none)
    | (fraction, rest) => readScale negative whole (some fraction) rest
  | (whole, rest) => readScale negative whole none rest

/-! ## Values -/

/-- Reads the rest of a word. -/
def readWord : List Char → List Glyph → Except Fault (List Glyph)
  | [], gs => .ok gs
  | _ :: _, [] => .error .endInValue
  | c :: cs, g :: gs => if g = some c then readWord cs gs else .error .wantsWord

/-- A word's value, or the stop inside it. -/
def wordValue (value : Scan) (word : List Char) (gs : List Glyph) : Scan × Option (List Glyph) :=
  match readWord word gs with
  | .ok rest => (value, some rest)
  | .error f => (.stop (.both f), none)

mutual

/-- Reads a value: its scan, and the rest unless the scan stops. The number bounds the steps. -/
def readValue : Nat → List Glyph → Scan × Option (List Glyph)
  | 0, _ => (.stop (.both .endInValue), none)
  | steps + 1, gs =>
    match skipGap gs with
    | [] => (.stop (.both .endInValue), none)
    | some 'n' :: rest => wordValue .null ['u', 'l', 'l'] rest
    | some 't' :: rest => wordValue (.bool true) ['r', 'u', 'e'] rest
    | some 'f' :: rest => wordValue (.bool false) ['a', 'l', 's', 'e'] rest
    | some '"' :: rest =>
      match readText rest with
      | .done (.ok s) rest => (.text s, some rest)
      | .done (.error f) rest => (.flaw f, some rest)
      | .stopped s => (.stop s, none)
    | some '[' :: rest => let (items, rest) := readItems steps true rest; (.array items, rest)
    | some '{' :: rest =>
      let (members, rest) := readMembers steps true rest
      (.object members, rest)
    | some '-' :: rest => readNumber true rest
    | some c :: rest =>
      if c.isDigit then readNumber false (some c :: rest) else (.stop (.both .wantsValue), none)
    | none :: _ => (.stop (.both .wantsValue), none)

/-- Reads the items of an array from behind the bracket, or from behind an item. -/
def readItems : Nat → Bool → List Glyph → Items × Option (List Glyph)
  | 0, _, _ => (.stop (.both .endInArray), none)
  | steps + 1, first, gs =>
    match skipGap gs with
    | [] => (.stop (.both .endInArray), none)
    | some ']' :: rest => (.closed, some rest)
    | g :: rest =>
      if first then readItem steps (g :: rest)
      else if g = some ',' then
        match skipGap rest with
        | [] => (.stop (.both .endInValue), none)
        | some ']' :: _ => (.stop ⟨.commaAtEnd, .wantsValue⟩, none)
        | rest => readItem steps rest
      else (.stop (.both .wantsCommaOrBracket), none)

/-- Reads an item and those behind it. -/
def readItem : Nat → List Glyph → Items × Option (List Glyph)
  | 0, _ => (.stop (.both .endInArray), none)
  | steps + 1, gs =>
    match readValue steps gs with
    | (value, none) => (.cons value .closed, none)
    | (value, some rest) =>
      let (items, rest) := readItems steps false rest
      (.cons value items, rest)

/-- Reads the members of an object from behind the brace, or from behind a member. -/
def readMembers : Nat → Bool → List Glyph → Members × Option (List Glyph)
  | 0, _, _ => (.stop (.both .endInObject), none)
  | steps + 1, first, gs =>
    match skipGap gs with
    | [] => (.stop (.both .endInObject), none)
    | some '}' :: rest => (.closed, some rest)
    | g :: rest =>
      if first then
        if g = some '"' then readMember steps rest else (.stop (.both .wantsKey), none)
      else if g = some ',' then
        match skipGap rest with
        | [] => (.stop ⟨.endInValue, .endInObject⟩, none)
        | some '"' :: rest => readMember steps rest
        | some '}' :: _ => (.stop ⟨.commaAtEnd, .wantsKey⟩, none)
        | _ => (.stop (.both .wantsKey), none)
      else (.stop (.both .wantsCommaOrBrace), none)

/-- Reads a member from behind the quote of its key, and those behind it. A fault before the value
is a stop in the place of the value. -/
def readMember : Nat → List Glyph → Members × Option (List Glyph)
  | 0, _ => (.stop (.both .endInObject), none)
  | steps + 1, gs =>
    match readText gs with
    | .stopped s => (.stop s, none)
    | .done key rest =>
      match skipGap rest with
      | [] => (.cons key (.stop (.both .endInObject)) .closed, none)
      | some ':' :: rest =>
        match readValue steps rest with
        | (value, none) => (.cons key value .closed, none)
        | (value, some rest) =>
          let (members, rest) := readMembers steps false rest
          (.cons key value members, rest)
      | _ => (.cons key (.stop (.both .wantsColon)) .closed, none)

end

/-! ## Whole texts -/

/-- The scan of a whole text, and whether more than blanks follows it. -/
structure Document where
  /-- The value. -/
  value : Scan
  /-- More than blanks follows. -/
  more : Bool

/-- The document of a list of glyphs. Every step of the reader takes a glyph off the list or is one
of at most three between two that do. -/
def Document.ofGlyphs (gs : List Glyph) : Document :=
  let (value, rest) := readValue (3 * gs.length + 3) gs
  ⟨value, !(skipGap (rest.getD [])).isEmpty⟩

/-- The document of a text. -/
def Document.ofText (s : String) : Document :=
  .ofGlyphs (glyphs s)

/-- The value of a text that is nothing but one value. -/
def parse (s : String) : Except Fault Json := do
  let d := Document.ofText s
  let j ← d.value.toJson
  if d.more then .error .moreText else .ok j

end NoteTools.Json
