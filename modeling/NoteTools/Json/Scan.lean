import NoteTools.Json.Basic

/-!
# Scanned JSON

A scan is a JSON text as far as it can be read. Where the text breaks off the grammar the scan ends
in a stop; a part that is well formed but has no value, such as a text with half a surrogate pair,
is a flaw. A reader that wants such a part reports its fault, and one that passes over it does not.

A value that is given as such, and not as text, is a scan too: it has no stops and no flaws, its
objects list their keys in order, and its arrays have a known length.

Main definitions:

* `Fault`: what is wrong with a text, and `Fault.message`;
* `Scan`, `Items`, `Members`;
* `Scan.ofJson`: the scan of a given value;
* `Scan.pass`: passes over a part, which fails only at a stop.
-/

namespace NoteTools.Json

/-- What is wrong with a JSON text. -/
inductive Fault where
  | endInValue | endInText | endInArray | endInObject
  | wantsColon | wantsCommaOrBracket | wantsCommaOrBrace | wantsWord | wantsValue | wantsKey
  | badEscape | badNumber | numberTooLarge | badOctets | controlCharacter
  | loneSurrogate | halfPair | commaAtEnd | moreText
  deriving DecidableEq, Repr

/-- The wording of a fault. -/
def Fault.message : Fault → String
  | .endInValue => "EOF while parsing a value"
  | .endInText => "EOF while parsing a string"
  | .endInArray => "EOF while parsing a list"
  | .endInObject => "EOF while parsing an object"
  | .wantsColon => "expected `:`"
  | .wantsCommaOrBracket => "expected `,` or `]`"
  | .wantsCommaOrBrace => "expected `,` or `\x7d`"
  | .wantsWord => "expected ident"
  | .wantsValue => "expected value"
  | .wantsKey => "key must be a string"
  | .badEscape => "invalid escape"
  | .badNumber => "invalid number"
  | .numberTooLarge => "number out of range"
  | .badOctets => "invalid unicode code point"
  | .controlCharacter => "control character (\\u0000-\\u001F) found while parsing a string"
  | .loneSurrogate => "lone leading surrogate in hex escape"
  | .halfPair => "unexpected end of hex escape"
  | .commaAtEnd => "trailing comma"
  | .moreText => "trailing characters"

/-- The end of what can be scanned: the fault for a reader that wants the part, and the fault for
one that passes over it. -/
structure Stop where
  /-- The fault of a reader. -/
  read : Fault
  /-- The fault of one that passes over. -/
  pass : Fault
  deriving DecidableEq, Repr

/-- A stop with one fault for both. -/
def Stop.both (f : Fault) : Stop := ⟨f, f⟩

mutual

/-- A JSON text as far as it can be read. -/
inductive Scan where
  | null
  | bool (b : Bool)
  | number (n : Number)
  | text (s : String)
  | array (items : Items)
  | object (members : Members)
  /-- A part that can be passed over but has no value. -/
  | flaw (f : Fault)
  /-- The scan ends here. -/
  | stop (s : Stop)

/-- The items of an array. -/
inductive Items where
  /-- The closing bracket. -/
  | closed
  /-- The end of an array whose length is known beforehand. -/
  | counted
  /-- The end of an array of which any number of items may be left over. -/
  | loose
  /-- The scan ends before the next item. -/
  | stop (s : Stop)
  | cons (head : Scan) (tail : Items)

/-- The members of an object. A key with a flaw is held as its fault. -/
inductive Members where
  /-- The closing brace. -/
  | closed
  /-- The scan ends before the next value. -/
  | stop (s : Stop)
  | cons (key : Except Fault String) (value : Scan) (tail : Members)

end

/-! ## Scans of given values -/

/-- Puts a member in the order of keys; a later member replaces an earlier one of the same key. -/
def putMember (key : String) (value : Json) : List (String × Json) → List (String × Json)
  | [] => [(key, value)]
  | (k, v) :: members =>
    if key = k then (key, value) :: members
    else if key < k then (key, value) :: (k, v) :: members
    else (k, v) :: putMember key value members

/-- The members of an object in the order of their keys. -/
def sortMembers (members : List (String × Json)) : List (String × Json) :=
  members.foldl (fun sorted (key, value) => putMember key value sorted) []

mutual

/-- A value with the members of every object in the order of their keys. -/
def sorted : Json → Json
  | .arr items => .arr (sortedItems items)
  | .obj members => .obj (sortMembers (sortedMembers members))
  | j => j

/-- The items of an array, each sorted. -/
def sortedItems : List Json → List Json
  | [] => []
  | j :: js => sorted j :: sortedItems js

/-- The members of an object, each sorted. -/
def sortedMembers : List (String × Json) → List (String × Json)
  | [] => []
  | (key, j) :: members => (key, sorted j) :: sortedMembers members

end

mutual

/-- The scan of a value as it stands, with a given end for its arrays. -/
def Scan.asIs (ending : Items) : Json → Scan
  | .null => .null
  | .bool b => .bool b
  | .num n => .number n
  | .str s => .text s
  | .arr items => .array (Items.asIs ending items)
  | .obj members => .object (Members.asIs ending members)

/-- The items of an array as they stand. -/
def Items.asIs (ending : Items) : List Json → Items
  | [] => ending
  | j :: js => .cons (Scan.asIs ending j) (Items.asIs ending js)

/-- The members of an object as they stand. -/
def Members.asIs (ending : Items) : List (String × Json) → Members
  | [] => .closed
  | (key, j) :: members => .cons (.ok key) (Scan.asIs ending j) (Members.asIs ending members)

end

/-- The scan of a given value: keys in order, arrays of known length. -/
def Scan.ofJson (j : Json) : Scan :=
  Scan.asIs .counted (sorted j)

/-! ## Passing over -/

mutual

/-- Passes over a part: it fails where the scan stops, and nowhere else. -/
def Scan.pass : Scan → Except Fault Unit
  | .array items => items.pass
  | .object members => members.pass
  | .stop s => .error s.pass
  | _ => .ok ()

/-- Passes over the items of an array. -/
def Items.pass : Items → Except Fault Unit
  | .stop s => .error s.pass
  | .cons head tail => do head.pass; tail.pass
  | _ => .ok ()

/-- Passes over the members of an object. -/
def Members.pass : Members → Except Fault Unit
  | .closed => .ok ()
  | .stop s => .error s.pass
  | .cons _ value tail => do value.pass; tail.pass

end

/-! ## Values of scans -/

mutual

/-- The value of a scan that has neither stops nor flaws. -/
def Scan.toJson : Scan → Except Fault Json
  | .null => .ok .null
  | .bool b => .ok (.bool b)
  | .number n => .ok (.num n)
  | .text s => .ok (.str s)
  | .array items => do return .arr (← items.toList)
  | .object members => do return .obj (← members.toList)
  | .flaw f => .error f
  | .stop s => .error s.read

/-- The values of the items. -/
def Items.toList : Items → Except Fault (List Json)
  | .stop s => .error s.read
  | .cons head tail => do return (← head.toJson) :: (← tail.toList)
  | _ => .ok []

/-- The values of the members, by key. -/
def Members.toList : Members → Except Fault (List (String × Json))
  | .closed => .ok []
  | .stop s => .error s.read
  | .cons key value tail => do return (← key, ← value.toJson) :: (← tail.toList)

end

end NoteTools.Json
