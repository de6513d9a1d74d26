import NoteTools.Numeric.Digits
import NoteTools.Text.Blank
import NoteTools.Text.FormUrl
import NoteTools.Text.Split

/-!
# Endpoints

The address that a client's requests go to: a host reached by `http` or `https`, and a path on it,
under which the client names further paths. An address may also have a query or a fragment; what is
put under it then goes behind that.

An address is read as browsers do: blanks in front, tabs and line ends are dropped, backslashes
count as slashes, the segments `.` and `..` are resolved, the host is put in small letters, the
scheme's own socket number is left out, and characters that cannot stand in a part are
percent-encoded. Blanks at the end are not dropped, since a path comes behind them.

It is assumed that an address has no user info and that its host is written as it is sent, but for
capitals: what stands in front of an `@` is left out, and neither international names nor other
spellings of numeric hosts are converted.

Main definitions:

* `Endpoint`, `Endpoint.read?`: an address, and the one that a text spells;
* `Endpoint.namesHost`: the texts behind which a path is one;
* `Endpoint.pathText`: segments as they stand in a path;
* `Endpoint.below`, `Endpoint.withQuery`: a path under an endpoint, and a query on it;
* `Endpoint.target`, `Endpoint.url`: what stands on the request line, and the whole address.
-/

namespace NoteTools.Http

open Text

/-- An address of requests. -/
structure Endpoint where
  /-- The scheme, the host, and the socket number unless it is the scheme's own. -/
  origin : String
  /-- The segments of the path. -/
  segments : List String
  /-- The query. -/
  query : Option String
  /-- The fragment, which is not sent. -/
  fragment : Option String
  deriving DecidableEq, Repr

/-! ## Parts of an address -/

/-- The characters of a part, with those of a class and all that are not printable ASCII
percent-encoded. -/
def percentEncode (special : List Char) (cs : List Char) : List Char :=
  cs.flatMap fun c =>
    if c.toNat < 0x20 ∨ 0x7F ≤ c.toNat ∨ c ∈ special then
      (String.utf8EncodeChar c).flatMap FormUrl.percent
    else [c]

/-- The characters that cannot stand in a path, a query and a fragment. -/
def pathSpecial : List Char := [' ', '"', '#', '<', '>', '?', '`', '{', '}']

/-- The characters that cannot stand in a query. -/
def querySpecial : List Char := [' ', '"', '#', '<', '>', '\'']

/-- The characters that cannot stand in a fragment. -/
def fragmentSpecial : List Char := [' ', '"', '<', '>', '`']

/-- A slash or a backslash. -/
def isSlash (c : Char) : Bool := c == '/' || c == '\\'

/-- A segment that means the same place. -/
def isHere (segment : String) : Bool :=
  [".", "%2e"].contains (lowerAscii segment)

/-- A segment that means the place above. -/
def isAbove (segment : String) : Bool :=
  ["..", ".%2e", "%2e.", "%2e%2e"].contains (lowerAscii segment)

/-- The segments of a path, the last one first, with the steps to the same place and to the place
above resolved. -/
def resolve (above : List String) : List String → List String
  | [] => above
  | s :: rest =>
    if isHere s then resolve above rest
    else if isAbove s then resolve above.tail rest
    else resolve (s :: above) rest

/-- The characters that cannot stand in a host. -/
def hostForbidden : List Char :=
  [' ', '#', '%', '/', ':', '<', '>', '?', '@', '[', '\\', ']', '^', '`', '{', '|', '}']

/-- A socket number in decimal digits; no digits are no number. -/
def readSocketNumber? (cs : List Char) : Option (Option Nat) :=
  if cs.isEmpty then some none
  else ((Numeric.readDigits? 10 cs).filter (· < 65536)).map some

/-- The host and the socket number of an authority, without a number that is the scheme's own. -/
def readHost? (own : Nat) (cs : List Char) : Option String := do
  let (host, number) := match cs with
    | '[' :: rest =>
      let (inner, after) := breakAt (· == ']') rest
      ('[' :: inner ++ after.take 1, after.drop 1)
    | _ => breakAt (· == ':') cs
  let name := lowerAscii (String.ofList host)
  let wellFormed := match host with
    | '[' :: inner => inner.all fun c => c.isAlphanum || c == ':' || c == '.' || c == ']'
    | _ => host.all fun c => 0x20 ≤ c.toNat && c.toNat != 0x7F && !hostForbidden.contains c
  if host.isEmpty || !wellFormed then none
  else
    match number with
    | [] => return name
    | ':' :: digits =>
      match ← readSocketNumber? digits with
      | some n => return if n = own then name else name ++ ":" ++ toString n
      | none => return name
    | _ => none

namespace Endpoint

/-- The scheme, its own socket number, and what follows the scheme. -/
def readScheme? (cs : List Char) : Option (String × Nat × List Char) :=
  let (scheme, rest) := breakAt (· == ':') cs
  match lowerAscii (String.ofList scheme), rest with
  | "http", ':' :: rest => some ("http", 80, rest)
  | "https", ':' :: rest => some ("https", 443, rest)
  | _, _ => none

/-- The characters of an address that are read: none of the blanks and control characters in front,
and no tabs and line ends. -/
def significant (cs : List Char) : List Char :=
  (cs.dropWhile fun c => c.toNat ≤ 0x20).filter fun c => c != '\t' && c != '\n' && c != '\r'

/-- The character stands behind the host. -/
def endsHost (c : Char) : Bool :=
  isSlash c || c == '?' || c == '#'

/-- The character stands behind the path. -/
def endsPath (c : Char) : Bool :=
  c == '?' || c == '#'

/-- The text of a part of an address. -/
def encoded (special cs : List Char) : String :=
  String.ofList (percentEncode special cs)

/-- The segments of a path. -/
def readPath (cs : List Char) : List String :=
  (resolve [] (((splitOn isSlash cs).drop 1).map (encoded pathSpecial))).reverse

/-- The fragment at the front of a text. -/
def readFragment : List Char → Option String
  | '#' :: cs => some (encoded fragmentSpecial cs)
  | _ => none

/-- The endpoint of an origin and of the path, the query and the fragment behind it. -/
def behind (origin : String) (cs : List Char) : Endpoint :=
  let (path, rest) := breakAt endsPath cs
  match rest with
  | '?' :: rest =>
    let (query, rest) := breakAt (· == '#') rest
    { origin, segments := readPath path, query := some (encoded querySpecial query)
      fragment := readFragment rest }
  | _ => { origin, segments := readPath path, query := none, fragment := readFragment rest }

/-- The address that a text spells. -/
def read? (s : String) : Option Endpoint := do
  let (scheme, own, rest) ← readScheme? (significant s.toList)
  let (authority, rest) := breakAt endsHost (rest.dropWhile isSlash)
  let host ← readHost? own ((splitOn (· == '@') authority).getLast?.getD [])
  return behind (scheme ++ "://" ++ host) rest

/-- A text has a scheme, and not only slashes behind it. Behind a text that has only slashes there,
a path would be read as the host. -/
def namesHost (s : String) : Bool :=
  (readScheme? (significant s.toList)).any fun (_, _, rest) => !(rest.dropWhile isSlash).isEmpty

/-- Segments as they stand in a path. -/
def pathText (segments : List String) : String :=
  String.join (segments.map ("/" ++ ·))

/-- The address of a path under an endpoint. -/
def below (e : Endpoint) (segments : List String) : Endpoint :=
  match e.fragment, e.query with
  | some f, _ => { e with fragment := some (f ++ pathText segments) }
  | none, some q => { e with query := some (q ++ pathText segments) }
  | none, none => { e with segments := e.segments ++ segments }

/-- An address with named values put at the end of its query. -/
def withQuery (e : Endpoint) (pairs : List (String × String)) : Endpoint :=
  let text := FormUrl.encodePairs pairs
  { e with query := some (match e.query with
      | none => text
      | some q => if q = "" then text else q ++ "&" ++ text) }

/-- The path and the query, as they stand on the request line. -/
def target (e : Endpoint) : String :=
  (if e.segments = [] then "/" else pathText e.segments)
    ++ match e.query with
      | some q => "?" ++ q
      | none => ""

/-- The whole address. -/
def url (e : Endpoint) : String :=
  e.origin ++ e.target
    ++ match e.fragment with
      | some f => "#" ++ f
      | none => ""

end Endpoint

end NoteTools.Http
