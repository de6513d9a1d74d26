import NoteTools.Settings.Basic
import NoteTools.Text.Blank

/-!
# Checking settings

Settings are brought to a normal form first: blanks around texts and slashes at the end of the
server's address are removed, and the mode of access is put in small letters. They are then checked
part by part, and the first violation counts. The keys are checked only in the mode that uses them.

Main definitions:

* `Settings.normalize`: the normal form;
* `Violation` and its wording;
* `Settings.check`: the first violation.
-/

namespace NoteTools

/-! ## Normal form -/

/-- A key without blanks around its texts. -/
def AccessKey.normalize (k : AccessKey) : AccessKey :=
  { id := Text.trim k.id, token := Text.trim k.token }

/-- The normal form of settings. -/
def Settings.normalize (s : Settings) : Settings :=
  { s with
    listen := { s.listen with bind := Text.trim s.listen.bind }
    noteServer := { s.noteServer with
      base := Text.trimEnd (· == '/') (Text.trim s.noteServer.base)
      token := Text.trim s.noteServer.token }
    access := {
      mode := Text.lowerAscii (Text.trim s.access.mode)
      keys := s.access.keys.map AccessKey.normalize } }

/-! ## Violations -/

/-- What is wrong with settings. -/
inductive Violation where
  /-- There is no address to listen on. -/
  | blankBind
  /-- There is no address of the note server. -/
  | blankBase
  /-- The address of the note server has another scheme. -/
  | foreignScheme
  /-- There is no token for the note server. -/
  | blankToken
  /-- The requests get no time. -/
  | zeroTimeout
  /-- No limit is allowed. -/
  | zeroLimit
  /-- There is no such mode of access. -/
  | unknownMode (mode : String)
  /-- There is no key. -/
  | noKeys
  /-- A key has no name or no token. -/
  | incompleteKey
  /-- Two keys have the same name. -/
  | duplicateKey (id : String)
  deriving DecidableEq, Repr

/-- The wording of a violation. -/
def Violation.message : Violation → String
  | .blankBind => "service.mcp_bind must be non-empty."
  | .blankBase => "trilium.api_base must be non-empty."
  | .foreignScheme => "trilium.api_base must start with http:// or https://."
  | .blankToken => "trilium.token must be non-empty."
  | .zeroTimeout => "trilium.timeout_ms must be greater than zero."
  | .zeroLimit => "search.max_limit must be greater than zero."
  | .unknownMode mode => "security.auth_mode must be one of off or static_keys, got " ++ mode ++ "."
  | .noKeys => "security.auth_keys must be non-empty when security.auth_mode=static_keys."
  | .incompleteKey => "security.auth_keys entries require non-empty token_id and token."
  | .duplicateKey id => "security.auth_keys token_id " ++ id ++ " is duplicated."

/-! ## Checks -/

/-- An address that starts with a scheme the client speaks. -/
def hasHttpScheme (base : String) : Bool :=
  "http://".toList.isPrefixOf base.toList || "https://".toList.isPrefixOf base.toList

/-- Checks the keys behind those of the given names. -/
def checkKeysAfter (seen : List String) : List AccessKey → Except Violation Unit
  | [] => .ok ()
  | k :: keys =>
    if k.id = "" ∨ k.token = "" then .error .incompleteKey
    else if k.id ∈ seen then .error (.duplicateKey k.id)
    else checkKeysAfter (k.id :: seen) keys

/-- Checks the keys: there is one, all are complete, and their names differ. -/
def checkKeys (keys : List AccessKey) : Except Violation Unit :=
  if keys = [] then .error .noKeys else checkKeysAfter [] keys

/-- Checks who may use the tools. -/
def AccessSettings.check (a : AccessSettings) : Except Violation Unit :=
  if a.mode = off then .ok ()
  else if a.mode = staticKeys then checkKeys a.keys
  else .error (.unknownMode a.mode)

/-- Checks settings. -/
def Settings.check (s : Settings) : Except Violation Unit :=
  let base := Text.trim s.noteServer.base
  if Text.blank s.listen.bind then .error .blankBind
  else if base = "" then .error .blankBase
  else if !hasHttpScheme base then .error .foreignScheme
  else if Text.blank s.noteServer.token then .error .blankToken
  else if s.noteServer.timeout = 0 then .error .zeroTimeout
  else if s.search.maxLimit = 0 then .error .zeroLimit
  else s.access.check

end NoteTools
