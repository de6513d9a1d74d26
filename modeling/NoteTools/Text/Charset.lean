import NoteTools.Text.Blank
import NoteTools.Text.Utf8

/-!
# Character sets

The text of a reply is decoded by the character set that its content type names. A byte order mark
at the start decides the character set and is removed; a content type that names none, or one that
is not known, means UTF-8. What cannot be decoded becomes U+FFFD.

Four sets are known: UTF-8, the two orders of UTF-16, and the western single-octet set. It is
assumed that a content type names no other set. A label such as `shift_jis` or `windows-1251` is not
known here, so it counts as one that means nothing, and content of such a type is read as UTF-8.

Main definitions:

* `Charset`, `Charset.ofLabel?`: the character sets and their labels;
* `Charset.ofContentType`: the character set of a content type;
* `decodeText`: the text of octets of a content type.
-/

namespace NoteTools.Text

/-- A character set that is known. -/
inductive Charset where
  | utf8
  | utf16le
  | utf16be
  /-- The western single-octet set. -/
  | windows1252
  deriving DecidableEq, Repr

namespace Charset

/-! ## Labels -/

/-- The labels of the known sets. -/
def labels : List (String × Charset) :=
  (["unicode-1-1-utf-8", "unicode11utf8", "unicode20utf8", "utf-8", "utf8", "x-unicode20utf8"].map
    fun l => (l, .utf8))
  ++ (["unicodefffe", "utf-16be"].map fun l => (l, .utf16be))
  ++ (["csunicode", "iso-10646-ucs-2", "ucs-2", "unicode", "unicodefeff", "utf-16", "utf-16le"].map
    fun l => (l, .utf16le))
  ++ (["ansi_x3.4-1968", "ascii", "cp1252", "cp819", "csisolatin1", "ibm819", "iso-8859-1",
    "iso-ir-100", "iso8859-1", "iso88591", "iso_8859-1", "iso_8859-1:1987", "l1", "latin1",
    "us-ascii", "windows-1252", "x-cp1252"].map fun l => (l, .windows1252))

/-- A blank of a label. -/
def isLabelBlank (c : Char) : Bool :=
  c == '\t' || c == '\n' || c == '\x0c' || c == '\r' || c == ' '

/-- The set of a label, whatever its capitals and the blanks around it. The label of a set that is
not known has none. -/
def ofLabel? (label : String) : Option Charset :=
  labels.lookup (lowerAscii (String.ofList (strip isLabelBlank label.toList)))

/-! ## Content types -/

/-- The value of a parameter: a token, or a text between quotes. -/
def parameterValue (cs : List Char) : String :=
  match cs with
  | '"' :: rest => String.ofList (rest.takeWhile (· != '"'))
  | _ => String.ofList (cs.takeWhile fun c => c != ';' && c != ' ')

/-- The parameters of a content type: the parts behind its semicolons, split at the first equals
sign. -/
def parameters : List Char → List (String × String)
  | [] => []
  | ';' :: cs =>
    let part := cs.dropWhile (· == ' ')
    let name := part.takeWhile fun c => c != '=' && c != ';'
    let rest := part.dropWhile fun c => c != '=' && c != ';'
    match rest with
    | '=' :: value => (lowerAscii (String.ofList name), parameterValue value) :: parameters cs
    | _ => parameters cs
  | _ :: cs => parameters cs

/-- A content type names a type and a subtype. -/
def hasSubtype (cs : List Char) : Bool :=
  let front := cs.takeWhile (· != ';')
  let subtype := (front.dropWhile (· != '/')).drop 1
  !(front.takeWhile (· != '/')).isEmpty && !subtype.isEmpty

/-- The set that a content type asks for: UTF-8 unless it names another one that is known. -/
def ofContentType (contentType : Option String) : Charset :=
  let named := do
    let cs := (← contentType).toList
    if hasSubtype cs then ofLabel? (← (parameters cs).lookup "charset") else none
  named.getD .utf8

/-! ## Decoding -/

/-- The characters of the octets `80` to `9F` of the western set. -/
def windows1252High : List Nat :=
  [0x20AC, 0x81, 0x201A, 0x0192, 0x201E, 0x2026, 0x2020, 0x2021, 0x02C6, 0x2030, 0x0160, 0x2039,
   0x0152, 0x8D, 0x017D, 0x8F, 0x90, 0x2018, 0x2019, 0x201C, 0x201D, 0x2022, 0x2013, 0x2014,
   0x02DC, 0x2122, 0x0161, 0x203A, 0x0153, 0x9D, 0x017E, 0x0178]

/-- The character of an octet of the western set. -/
def windows1252Char (b : UInt8) : Char :=
  let n := b.toNat
  if 0x80 ≤ n ∧ n < 0xA0 then Char.ofNat (windows1252High.getD (n - 0x80) 0xFFFD)
  else Char.ofNat n

/-- The units of sixteen bits of the octets; a last octet alone is no unit. -/
def units (bigEndian : Bool) : List UInt8 → List (Option Nat)
  | [] => []
  | [_] => [none]
  | a :: b :: rest =>
    some (if bigEndian then a.toNat * 256 + b.toNat else b.toNat * 256 + a.toNat)
      :: units bigEndian rest

/-- The characters of units of sixteen bits, with U+FFFD for a surrogate without its partner and for
half a unit. -/
def ofUnits : List (Option Nat) → List Char
  | [] => []
  | none :: us => '\uFFFD' :: ofUnits us
  | some n :: some m :: us =>
    if 0xD800 ≤ n ∧ n < 0xDC00 then
      if 0xDC00 ≤ m ∧ m < 0xE000 then
        Char.ofNat (0x10000 + (n - 0xD800) * 0x400 + (m - 0xDC00)) :: ofUnits us
      else '\uFFFD' :: ofUnits (some m :: us)
    else if 0xDC00 ≤ n ∧ n < 0xE000 then '\uFFFD' :: ofUnits (some m :: us)
    else Char.ofNat n :: ofUnits (some m :: us)
  | [some n, none] =>
    if 0xD800 ≤ n ∧ n < 0xE000 then ['\uFFFD'] else [Char.ofNat n, '\uFFFD']
  | some n :: us =>
    (if 0xD800 ≤ n ∧ n < 0xE000 then '\uFFFD' else Char.ofNat n) :: ofUnits us

/-- The text of octets in a set. -/
def decode (bytes : List UInt8) (set : Charset) : String :=
  match set with
  | .utf8 => Utf8.lossy bytes
  | .utf16le => String.ofList (ofUnits (units false bytes))
  | .utf16be => String.ofList (ofUnits (units true bytes))
  | .windows1252 => String.ofList (bytes.map windows1252Char)

end Charset

/-- The text of octets of a content type. -/
def decodeText (contentType : Option String) (bytes : List UInt8) : String :=
  match bytes with
  | 0xEF :: 0xBB :: 0xBF :: rest => Charset.decode rest .utf8
  | 0xFE :: 0xFF :: rest => Charset.decode rest .utf16be
  | 0xFF :: 0xFE :: rest => Charset.decode rest .utf16le
  | _ => Charset.decode bytes (Charset.ofContentType contentType)

end NoteTools.Text
