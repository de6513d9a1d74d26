import NoteTools.Json.Decode
import NoteTools.Settings.Basic

/-!
# Settings as records

Settings are decoded from four sections; the section on searches and some fields have defaults.

Main definitions:

* `Settings.decode`, `Settings.toJson`.
-/

namespace NoteTools

open Json

/-! ## Decoding -/

/-- Decodes the section on listening. -/
def ListenSettings.decode : Decoder ListenSettings := fun s => do
  let bind := Field.required "mcp_bind" Decoder.text
  let logLevel := Field.withDefault "log_level" Decoder.text "info"
  let r ← openRecord "Service" [bind.slot, logLevel.slot] s
  return { bind := ← r.get bind, logLevel := ← r.get logLevel }

/-- Decodes the section on the note server. -/
def NoteServerSettings.decode : Decoder NoteServerSettings := fun s => do
  let base := Field.required "api_base" Decoder.text
  let token := Field.required "token" Decoder.text
  let timeout := Field.withDefault "timeout_ms" Decoder.nat64 30000
  let r ← openRecord "Trilium" [base.slot, token.slot, timeout.slot] s
  return { base := ← r.get base, token := ← r.get token, timeout := ← r.get timeout }

/-- Decodes the section on searches. -/
def SearchSettings.decode : Decoder SearchSettings := fun s => do
  let maxLimit := Field.withDefault "max_limit" Decoder.nat32 200
  let traceQueries := Field.withDefault "trace_queries" Decoder.bool false
  let r ← openRecord "Search" [maxLimit.slot, traceQueries.slot] s
  return { maxLimit := ← r.get maxLimit, traceQueries := ← r.get traceQueries }

/-- Decodes a key. -/
def AccessKey.decode : Decoder AccessKey := fun s => do
  let id := Field.required "token_id" Decoder.text
  let token := Field.required "token" Decoder.text
  let r ← openRecord "SecurityAuthKey" [id.slot, token.slot] s
  return { id := ← r.get id, token := ← r.get token }

/-- Decodes the section on access. -/
def AccessSettings.decode : Decoder AccessSettings := fun s => do
  let mode := Field.required "auth_mode" Decoder.text
  let keys := Field.withDefault "auth_keys" (Decoder.list AccessKey.decode) []
  let r ← openRecord "Security" [mode.slot, keys.slot] s
  return { mode := ← r.get mode, keys := ← r.get keys }

/-- Decodes settings. -/
def Settings.decode : Decoder Settings := fun s => do
  let listen := Field.required "service" ListenSettings.decode
  let noteServer := Field.required "trilium" NoteServerSettings.decode
  let search := Field.withDefault "search" SearchSettings.decode {}
  let access := Field.required "security" AccessSettings.decode
  let r ← openRecord "Config" [listen.slot, noteServer.slot, search.slot, access.slot] s
  return {
    listen := ← r.get listen
    noteServer := ← r.get noteServer
    search := ← r.get search
    access := ← r.get access }

/-! ## Encoding -/

/-- The object of a key. -/
def AccessKey.toJson (k : AccessKey) : Json :=
  .obj [("token_id", .str k.id), ("token", .str k.token)]

/-- The object of settings, by section. -/
def Settings.toJson (s : Settings) : Json :=
  .obj [
    ("service", .obj [("mcp_bind", .str s.listen.bind), ("log_level", .str s.listen.logLevel)]),
    ("trilium", .obj [("api_base", .str s.noteServer.base), ("token", .str s.noteServer.token),
      ("timeout_ms", .nat s.noteServer.timeout.toNat)]),
    ("search", .obj [("max_limit", .nat s.search.maxLimit.toNat),
      ("trace_queries", .bool s.search.traceQueries)]),
    ("security", .obj [("auth_mode", .str s.access.mode),
      ("auth_keys", .arr (s.access.keys.map AccessKey.toJson))])]

end NoteTools
