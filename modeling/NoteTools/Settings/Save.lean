import NoteTools.Settings.Basic
import NoteTools.Toml.Printer

/-!
# Saving settings

Settings are written as a file of four sections, with every field in it.

Main definitions:

* `Settings.sections`, `Settings.fileText`.
-/

namespace NoteTools

/-- The table of a key. -/
def AccessKey.toToml (k : AccessKey) : Toml.Value :=
  .table .braced [("token_id", .text k.id), ("token", .text k.token)]

/-- The sections of settings. -/
def Settings.sections (s : Settings) : List (String × Toml.Entries) := [
  ("service", [("mcp_bind", .text s.listen.bind), ("log_level", .text s.listen.logLevel)]),
  ("trilium", [("api_base", .text s.noteServer.base), ("token", .text s.noteServer.token),
    ("timeout_ms", .int s.noteServer.timeout.toNat)]),
  ("search", [("max_limit", .int s.search.maxLimit.toNat),
    ("trace_queries", .bool s.search.traceQueries)]),
  ("security", [("auth_mode", .text s.access.mode),
    ("auth_keys", .array false (s.access.keys.map AccessKey.toToml))])]

/-- The text of a file that holds settings. -/
def Settings.fileText (s : Settings) : String :=
  Toml.fileText s.sections

end NoteTools
