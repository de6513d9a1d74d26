import NoteTools.Json.Scan

/-!
# Values of a settings file

A settings file is a tree of tables. How a table came about decides what may still be put into it:
a header may name a table that so far is only a part of other paths, a dotted key may extend a table
made by dotted keys or by paths, and a table between braces is complete as it stands.

Main definitions:

* `Value`, `TableKind`, `Entries`;
* `putPair`, `openTable`, `openItem`: the effect of a pair, of a header, and of a header of an
  array;
* `Value.scan`: a value as decoders see it.
-/

namespace NoteTools.Toml

/-- How a table came about. -/
inductive TableKind where
  /-- By a header of its own. -/
  | header
  /-- As a part of the path of a header. -/
  | implied
  /-- As a part of a dotted key. -/
  | dotted
  /-- Between braces. -/
  | braced
  deriving DecidableEq, Repr

/-- A value. -/
inductive Value where
  | text (s : String)
  | int (i : Int)
  /-- A number with a point or an exponent, which may be too large for a double. -/
  | float (inRange : Bool)
  | bool (b : Bool)
  /-- A day, a time of day, or both. -/
  | moment
  /-- An array; a growing one is made by headers and takes further tables. -/
  | array (growing : Bool) (items : List Value)
  | table (kind : TableKind) (entries : List (String × Value))

/-- The keys and values of a table, in the order in which they were put. -/
abbrev Entries := List (String × Value)

/-! ## Putting -/

/-- Changes the value of a key, or adds one. -/
def alter (key : String) (f : Option Value → Option Value) : Entries → Option Entries
  | [] => (f none).map fun v => [(key, v)]
  | (k, v) :: rest =>
    if k = key then (f (some v)).map fun v => (k, v) :: rest
    else (alter key f rest).map ((k, v) :: ·)

/-- Changes the table that a part of a path leads to: a table, or the last one of a growing array. A
table between braces stays as it is, and a dotted key does not lead into a table with a header. -/
def intoTable (dotted : Bool) (change : TableKind → Entries → Option Entries) :
    Value → Option Value
  | .table kind entries =>
    if kind = .braced ∨ (dotted ∧ kind = .header) then none
    else (change kind entries).map (.table kind)
  | .array true items =>
    match items.getLast? with
    | some (.table kind entries) =>
      (change kind entries).map fun entries =>
        .array true (items.dropLast ++ [.table kind entries])
    | _ => none
  | _ => none

/-- Changes the table at the end of a path; tables that are missing on the way are made. -/
def atPath (dotted : Bool) (change : TableKind → Entries → Option Entries) :
    List String → TableKind → Entries → Option Entries
  | [], kind, entries => change kind entries
  | key :: path, _, entries =>
    let made : TableKind := if dotted then .dotted else .implied
    alter key (fun
      | none => (atPath dotted change path made []).map (.table made)
      | some v => intoTable dotted (atPath dotted change path) v) entries

/-- Puts a value under a dotted key. The table that takes it was made by dotted keys, unless the key
has one part only, and it has no such key yet. -/
def putPair (path : List String) (key : String) (value : Value) :
    TableKind → Entries → Option Entries :=
  atPath true (fun kind entries =>
    if (kind = .dotted) ↔ (path = []) then none
    else alter key (fun
      | none => some value
      | some _ => none) entries) path

/-- Opens the table of a header. It may be a part of earlier paths, but has no header yet. -/
def openTable (path : List String) (key : String) : Entries → Option Entries :=
  atPath false (fun _ => alter key fun
    | none => some (.table .header [])
    | some (.table .implied entries) => some (.table .header entries)
    | some _ => none) path .header

/-- Opens a new table at the end of the array of a header. -/
def openItem (path : List String) (key : String) : Entries → Option Entries :=
  atPath false (fun _ => alter key fun
    | none => some (.array true [.table .header []])
    | some (.array true items) => some (.array true (items ++ [.table .header []]))
    | some _ => none) path .header

/-! ## Decoding -/

/-- A whole number as decoders see it. One of more than 64 bits fits no setting, and one of more
than 128 bits cannot even be passed over. -/
def scanInt (i : Int) : Json.Scan :=
  if -0x8000000000000000 ≤ i ∧ i ≤ 0xFFFFFFFFFFFFFFFF then .number (.int i)
  else if -0x80000000000000000000000000000000 ≤ i ∧ i ≤ 0xFFFFFFFFFFFFFFFFFFFFFFFFFFFFFFFF then
    .flaw .numberTooLarge
  else .stop (.both .numberTooLarge)

mutual

/-- A value as decoders see it. No setting is a number with a point, and a moment counts as a table
without any known key. -/
def Value.scan : Value → Json.Scan
  | .text s => .text s
  | .int i => scanInt i
  | .float true => .flaw .badNumber
  | .float false => .stop (.both .numberTooLarge)
  | .bool b => .bool b
  | .moment => .object .closed
  | .array _ items => .array (scanItems items)
  | .table _ entries => .object (scanEntries entries)

/-- The items of an array as decoders see them. -/
def scanItems : List Value → Json.Items
  | [] => .loose
  | v :: vs => .cons v.scan (scanItems vs)

/-- The entries of a table as decoders see them. -/
def scanEntries : List (String × Value) → Json.Members
  | [] => .closed
  | (key, v) :: entries => .cons (.ok key) v.scan (scanEntries entries)

end

end NoteTools.Toml
