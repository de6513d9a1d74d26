import NoteTools.Access.SocketAddress
import NoteTools.Http.Message
import NoteTools.Settings.Basic
import NoteTools.Text.Blank
import NoteTools.Text.Utf8

/-!
# The guard of the tools

Either everybody may use the tools, which is possible only on an address that never leaves the
machine, or a request has to bear one of the configured tokens. Of several authorization headers the
first one counts.

Main definitions:

* `Guard`, `Guard.build`: the guard that settings ask for, and why there may be none;
* `bearerToken?`: the token of a header;
* `Guard.admits`: the requests that are let through;
* `Guard.refusal?`: the reply to a request that is not.
-/

namespace NoteTools.Access

/-- Who may use the tools. -/
inductive Guard where
  /-- Everybody. -/
  | off
  /-- Who bears one of the tokens. -/
  | staticKeys (tokens : List String)
  deriving DecidableEq, Repr

/-! ## Building a guard -/

/-- Why there is no guard. -/
inductive GuardError where
  /-- The address to listen on is none. -/
  | notAnAddress
  /-- The address to listen on can be reached from elsewhere. -/
  | notLoopback
  /-- There are no keys. -/
  | noKeys
  /-- There is no such mode. -/
  | unknownMode (mode : String)
  deriving DecidableEq, Repr

/-- What is wrong with a text that is no socket address. -/
def badAddress : String :=
  "invalid socket address syntax"

/-- The wording of an error. -/
def GuardError.message : GuardError → String
  | .notAnAddress =>
    "service.mcp_bind must be a valid socket address when security.auth_mode=off: " ++ badAddress
  | .notLoopback => "service.mcp_bind must be a loopback address when security.auth_mode=off."
  | .noKeys =>
    "security.auth_mode=static_keys requires at least one entry in security.auth_keys."
  | .unknownMode mode =>
    "security.auth_mode must be one of off or static_keys for trove-mcp, got " ++ mode ++ "."

/-- Checks that an address never leaves the machine. -/
def checkLoopback (bind : String) : Except GuardError Unit :=
  match SocketAddress.read? bind with
  | none => .error .notAnAddress
  | some address => if address.host.isLoopback then .ok () else .error .notLoopback

/-- The guard that settings ask for, with the address to listen on. -/
def Guard.build (settings : AccessSettings) (bind : String) : Except GuardError Guard :=
  if settings.mode = AccessSettings.off then do
    checkLoopback bind
    return .off
  else if settings.mode = AccessSettings.staticKeys then
    let tokens := settings.keys.map AccessKey.token
    if tokens = [] then .error .noKeys else .ok (.staticKeys tokens)
  else .error (.unknownMode settings.mode)

/-! ## Requests -/

/-- An octet of a header that is text: visible ASCII, a space or a tab. -/
def isHeaderOctet (b : UInt8) : Bool :=
  b == 0x09 || (0x20 ≤ b && b < 0x7F)

/-- The text of a header. -/
def headerText? (value : List UInt8) : Option String :=
  if value.all isHeaderOctet then
    some (String.ofList (value.map fun b => Char.ofNat b.toNat))
  else none

/-- The token of a header: what follows `Bearer ` and is not blank. -/
def bearerToken? (value : List UInt8) : Option String := do
  let text ← headerText? value
  match (Text.trim text).toList with
  | 'B' :: 'e' :: 'a' :: 'r' :: 'e' :: 'r' :: ' ' :: rest =>
    let token := Text.trim (String.ofList rest)
    if token = "" then none else return token
  | _ => none

/-- A request with the given authorization headers is let through. -/
def Guard.admits : Guard → List (List UInt8) → Bool
  | .off, _ => true
  | .staticKeys _, [] => false
  | .staticKeys tokens, value :: _ => (bearerToken? value).any tokens.contains

/-- What a request is told that is not let through. -/
def refusalText : String :=
  "Authentication required for security.auth_mode=static_keys with a Bearer token."

/-- The reply to a request that is not let through. -/
def unauthorized : Http.Reply where
  status := 401
  contentType := some "text/plain; charset=utf-8"
  body := Text.Utf8.encode refusalText

/-- The reply of the guard to a request with the given authorization headers, unless the request is
let through. -/
def Guard.refusal? (g : Guard) (values : List (List UInt8)) : Option Http.Reply :=
  if g.admits values then none else some unauthorized

end NoteTools.Access
