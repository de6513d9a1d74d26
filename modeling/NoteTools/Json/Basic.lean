import NoteTools.Numeric.Binary64

/-!
# JSON values

A value as it is built for an answer or a request body, and as it is given by a caller. The members
of an object keep the order in which they were put.

Main definitions:

* `Number`: a whole number or a double;
* `Json`: null, booleans, numbers, texts, arrays and objects;
* `Json.get?`: the member of an object under a key.
-/

namespace NoteTools

/-- A number of a JSON text: a whole number of at most 64 bits, or a double. -/
inductive Number where
  /-- A whole number. -/
  | int (i : Int)
  /-- Any other number, and minus zero. -/
  | real (x : Numeric.Binary64)
  deriving DecidableEq, Repr

/-- A JSON value. -/
inductive Json where
  /-- The value `null`. -/
  | null
  /-- A truth value. -/
  | bool (b : Bool)
  /-- A number. -/
  | num (n : Number)
  /-- A text. -/
  | str (s : String)
  /-- An array. -/
  | arr (items : List Json)
  /-- An object, by its members in order. -/
  | obj (members : List (String × Json))
  deriving Repr

namespace Json

/-- A whole number. -/
def int (i : Int) : Json := .num (.int i)

/-- A natural number. -/
def nat (n : Nat) : Json := .num (.int n)

/-- An array of texts. -/
def strs (ss : List String) : Json := .arr (ss.map .str)

/-- A text, or null when there is none. -/
def ofText? : Option String → Json
  | some s => .str s
  | none => .null

/-- A member that is put only when there is a text for it. -/
def textMember? (key : String) : Option String → List (String × Json)
  | some s => [(key, .str s)]
  | none => []

/-- The member of an object under a key. -/
def get? (key : String) : Json → Option Json
  | .obj members => members.lookup key
  | _ => none

end Json

end NoteTools
