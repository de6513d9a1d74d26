import NoteTools.Service.Basic

/-!
# The connection to the note server

Before the service is offered, the server is asked what it is.

Main definitions:

* `Service.checkConnection`.
-/

namespace NoteTools

/-- Asks the server what it is: the server is there and accepts the token. -/
def Service.checkConnection (s : Service) : ServiceAction AppInfo := do
  let info ← ServiceAction.call s.client.appInfo
  Action.report {
    level := .info, message := "Connected to Trilium."
    fields := [("app_version", .text info.appVersion), ("db_version", .int info.dbVersion.toInt)] }
  return info

end NoteTools
