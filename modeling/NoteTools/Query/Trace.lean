import NoteTools.Event
import NoteTools.Query.Compile

/-!
# Tracing a compilation

The observer of a compilation is told of each dropped criterion and then of the compiled query. The
compiled query is left out when a date is invalid. A trace is what the observer is told, as events
at the debug level.

Main definitions:

* `Notice`, `Compilation.notices`: what the observer of a compilation is told;
* `Notice.event`, `Compilation.events`: the same as events.

Results:

* `Compilation.events_eq`: the events are those of the drops, with that of the line behind them.
-/

namespace NoteTools

/-- The report of a dropped criterion. -/
def Drop.event (d : Drop) : Event where
  level := .debug
  message := "Dropped search criteria."
  fields := [("index", .nat d.index), ("property", .text d.criterion.property),
    ("reason", .text d.reason.message)]

/-- The report of a compiled query. -/
def compiledEvent (line : String) : Event where
  level := .debug
  message := "Compiled search query."
  fields := [("query", .text line)]

/-- What the observer of a compilation is told. -/
inductive Notice where
  /-- A criterion is dropped. -/
  | skipped (d : Drop)
  /-- The query is compiled. -/
  | compiled (line : String)

/-- What the observer is told, as an event. -/
def Notice.event : Notice → Event
  | .skipped d => d.event
  | .compiled line => compiledEvent line

namespace Compilation

/-- What the observer of a compilation is told, in order. -/
def notices (c : Compilation) : List Notice :=
  c.drops.map Notice.skipped ++
    match c.result with
    | .ok line => [.compiled line]
    | .error _ => []

/-- The reports of a compilation. -/
def events (c : Compilation) : List Event :=
  c.notices.map Notice.event

/-- The events of the drops come first, and that of the line comes last if there is one. -/
theorem events_eq (c : Compilation) :
    c.events = c.drops.map Drop.event ++
      match c.result with
      | .ok line => [compiledEvent line]
      | .error _ => [] := by
  rw [events, notices, List.map_append, List.map_map]
  cases c.result <;> rfl

end Compilation

end NoteTools
