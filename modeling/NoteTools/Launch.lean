import NoteTools.Access.Guard
import NoteTools.Service.Connection
import NoteTools.Settings.Load

/-!
# Starting the program

Settings are loaded and the guard is built before anything is sent; then the note server is asked
what it is, and the program listens.

Main definitions:

* `LaunchError` and its wording;
* `Settings.service`: the service of settings;
* `launch`: the program as it listens, or why it does not.
-/

namespace NoteTools

open Access

/-- Why the program does not start. -/
inductive LaunchError where
  /-- The settings cannot be loaded. -/
  | load (e : LoadError)
  /-- There is no guard. -/
  | guard (e : GuardError)
  /-- The note server cannot be asked what it is. -/
  | connection (e : ServiceError)
  /-- The address to listen on is none. -/
  | badBind
  deriving DecidableEq, Repr

/-- The wording of an error. -/
def LaunchError.message : LaunchError → String
  | .load e => e.message
  | .guard e => e.message
  | .connection e => e.message
  | .badBind => badAddress

/-- The service of settings. -/
def Settings.service (s : Settings) : Service where
  client := { base := s.noteServer.base, token := s.noteServer.token }
  maxLimit := s.search.maxLimit
  traceQueries := s.search.traceQueries

/-- The program as it listens. -/
structure Listening where
  /-- The address. -/
  address : SocketAddress
  /-- The guard of the tools. -/
  guard : Guard
  /-- The service behind the tools. -/
  service : Service
  deriving DecidableEq, Repr

/-- Starts the program with the file of settings of a path and its octets, if there is one. -/
def launch (path : String) (octets : Option (List UInt8)) : Action LaunchError Listening := do
  let settings ← Action.ofExcept ((Settings.load path octets).mapError .load)
  let bind := settings.listen.bind
  let guard ← Action.ofExcept ((Guard.build settings.access bind).mapError .guard)
  let service := settings.service
  let _ ← Action.mapError .connection service.checkConnection
  match SocketAddress.read? bind with
  | some address => return { address, guard, service }
  | none => throw .badBind

end NoteTools
