/-!
# Settings

What the program is told before it starts: where it listens and what it logs, the note server and
the token for it, the bounds of searches, and who may use the tools.

Main definitions:

* `Settings` and its parts `ListenSettings`, `NoteServerSettings`, `SearchSettings`,
  `AccessSettings`, `AccessKey`.
-/

namespace NoteTools

/-- Where the program listens, and what it logs. -/
structure ListenSettings where
  /-- The address to listen on. -/
  bind : String
  /-- The directives of the log filter. -/
  logLevel : String := "info"
  deriving DecidableEq, Repr

/-- The note server. -/
structure NoteServerSettings where
  /-- The address of its interface. -/
  base : String
  /-- The token for it. -/
  token : String
  /-- The time after which a request is given up, in milliseconds. -/
  timeout : UInt64 := 30000
  deriving DecidableEq, Repr

/-- The bounds of searches. -/
structure SearchSettings where
  /-- The largest limit that a search may ask for. -/
  maxLimit : UInt32 := 200
  /-- Compiled queries and dropped criteria are reported. -/
  traceQueries : Bool := false
  deriving DecidableEq, Repr

/-- A token that opens the tools, and its name. -/
structure AccessKey where
  /-- The name, unique among the keys. -/
  id : String
  /-- The token. -/
  token : String
  deriving DecidableEq, Repr

/-- Who may use the tools. -/
structure AccessSettings where
  /-- The mode: everybody on this machine, or the holders of a key. -/
  mode : String
  /-- The keys. -/
  keys : List AccessKey := []
  deriving DecidableEq, Repr

/-- All settings. -/
structure Settings where
  /-- Where the program listens, and what it logs. -/
  listen : ListenSettings
  /-- The note server. -/
  noteServer : NoteServerSettings
  /-- The bounds of searches. -/
  search : SearchSettings := {}
  /-- Who may use the tools. -/
  access : AccessSettings
  deriving DecidableEq, Repr

/-- The mode in which everybody on this machine may use the tools. -/
def AccessSettings.off : String := "off"

/-- The mode in which the holders of a key may use the tools. -/
def AccessSettings.staticKeys : String := "static_keys"

end NoteTools
