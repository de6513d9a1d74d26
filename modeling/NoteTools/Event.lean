/-!
# Log events

What the library reports while it works: a level, a message, and named values.

Main definitions:

* `Event`, `Event.Level`, `Event.Value`.
-/

namespace NoteTools

/-- The levels of events, the most severe one first. -/
inductive Event.Level where
  | error | warn | info | debug | trace
  deriving DecidableEq, Repr

/-- A value that is reported with an event. -/
inductive Event.Value where
  | nat (n : Nat)
  | int (i : Int)
  | bool (b : Bool)
  | text (s : String)
  deriving DecidableEq, Repr

/-- A log event. -/
structure Event where
  /-- The level. -/
  level : Event.Level
  /-- The message. -/
  message : String
  /-- The named values. -/
  fields : List (String × Event.Value)
  deriving DecidableEq, Repr

end NoteTools
