import NoteTools.Json.Reader
import NoteTools.Text.Shown

/-!
# Decoding

A decoder takes a scan and gives a value of a domain type, or says why it cannot. Records are
decoded by name from an object, or by position from an array. Members are looked at in the order in
which the scan holds them, and the first failure counts; fields that are left out are looked at
afterwards, in the order in which the record declares them.

Main definitions:

* `DecodeError` and its `message`;
* `Decoder` and the decoders of texts, truth values, whole numbers, lists, options and variants;
* `Field`, `openRecord`, `Opened.get`: the fields of a record;
* `decodeValue`, `decodeText`: decoding a given value, and decoding a text.
-/

namespace NoteTools.Json

/-! ## Errors -/

/-- What was found in a place. -/
inductive Found where
  | null
  | bool (b : Bool)
  | int (i : Int)
  | real (x : Numeric.Binary64)
  | text (s : String)
  | sequence
  | map
  deriving DecidableEq, Repr

/-- Why a value cannot be decoded. -/
inductive DecodeError where
  /-- The text is at fault. -/
  | malformed (f : Fault)
  /-- A field is left out that has no default. -/
  | missingField (name : String)
  /-- A field is given twice. -/
  | duplicateField (name : String)
  /-- A text names none of the variants. -/
  | unknownVariant (name : String) (expected : List String)
  /-- A value of another type was found. -/
  | invalidType (found : Found) (expected : String)
  /-- A value outside the accepted ones was found. -/
  | invalidValue (found : Found) (expected : String)
  /-- An array of the wrong length was found. -/
  | invalidLength (length : Nat) (expected : String)
  deriving DecidableEq, Repr

/-- The wording of what was found. -/
def Found.describe : Found → String
  | .null => "null"
  | .bool b => "boolean `" ++ toString b ++ "`"
  | .int i => "integer `" ++ toString i ++ "`"
  | .real x => "floating point `" ++ x.text ++ "`"
  | .text s => "string " ++ Text.shown s
  | .sequence => "sequence"
  | .map => "map"

/-- The wording of a list of alternatives. -/
def oneOf (names : List String) : String :=
  match names.map fun name => "`" ++ name ++ "`" with
  | [] => "there are no variants"
  | [a] => "expected " ++ a
  | [a, b] => "expected " ++ a ++ " or " ++ b
  | all => "expected one of " ++ ", ".intercalate all

/-- The wording of an error. -/
def DecodeError.message : DecodeError → String
  | .malformed f => f.message
  | .missingField name => "missing field `" ++ name ++ "`"
  | .duplicateField name => "duplicate field `" ++ name ++ "`"
  | .unknownVariant name expected => "unknown variant `" ++ name ++ "`, " ++ oneOf expected
  | .invalidType found expected =>
    "invalid type: " ++ found.describe ++ ", expected " ++ expected
  | .invalidValue found expected =>
    "invalid value: " ++ found.describe ++ ", expected " ++ expected
  | .invalidLength length expected =>
    "invalid length " ++ toString length ++ ", expected " ++ expected

/-! ## Decoders -/

/-- Gives the value that a scan stands for, or the reason why there is none. -/
abbrev Decoder (α : Type) := Scan → Except DecodeError α

/-- The error of finding a scan where something else is expected. -/
def wrongType (expected : String) : Scan → DecodeError
  | .null => .invalidType .null expected
  | .bool b => .invalidType (.bool b) expected
  | .number (.int i) => .invalidType (.int i) expected
  | .number (.real x) => .invalidType (.real x) expected
  | .text s => .invalidType (.text s) expected
  | .array _ => .invalidType .sequence expected
  | .object _ => .invalidType .map expected
  | .flaw f => .malformed f
  | .stop s => .malformed s.read

/-- Passes over a part that no field takes. -/
def ignore (s : Scan) : Except DecodeError Unit :=
  match s.pass with
  | .ok _ => .ok ()
  | .error f => .error (.malformed f)

namespace Decoder

/-- A text. -/
def text : Decoder String
  | .text s => .ok s
  | s => .error (wrongType "a string" s)

/-- A truth value. -/
def bool : Decoder Bool
  | .bool b => .ok b
  | s => .error (wrongType "a boolean" s)

/-- A whole number within bounds. -/
def whole (low high : Int) (expected : String) : Decoder Int
  | .number (.int i) =>
    if low ≤ i ∧ i ≤ high then .ok i else .error (.invalidValue (.int i) expected)
  | s => .error (wrongType expected s)

/-- A whole number of 64 bits with a sign. -/
def int64 : Decoder Int64 := fun s =>
  Int64.ofInt <$> whole (-0x8000000000000000) 0x7FFFFFFFFFFFFFFF "i64" s

/-- A natural number of 32 bits. -/
def nat32 : Decoder UInt32 := fun s =>
  (fun i => UInt32.ofNat i.toNat) <$> whole 0 0xFFFFFFFF "u32" s

/-- A natural number of 64 bits. -/
def nat64 : Decoder UInt64 := fun s =>
  (fun i => UInt64.ofNat i.toNat) <$> whole 0 0xFFFFFFFFFFFFFFFF "u64" s

/-- A value that may be null. -/
def optional {α : Type} (d : Decoder α) : Decoder (Option α)
  | .null => .ok none
  | s => some <$> d s

/-- The items of an array. -/
def items {α : Type} (d : Decoder α) : Items → Except DecodeError (List α)
  | .stop s => .error (.malformed s.read)
  | .cons head tail => do
    let a ← d head
    let rest ← items d tail
    return a :: rest
  | _ => .ok []

/-- An array of values of one type. -/
def list {α : Type} (d : Decoder α) : Decoder (List α)
  | .array xs => items d xs
  | s => .error (wrongType "a sequence" s)

/-- The unit value. -/
def unit : Decoder Unit
  | .null => .ok ()
  | s => .error (wrongType "unit" s)

/-- The variant of a name. -/
def variantOf {α : Type} (table : List (String × α)) (name : String) : Except DecodeError α :=
  match table.lookup name with
  | some a => .ok a
  | none => .error (.unknownVariant name (table.map (·.1)))

/-- One of several variants: its name, or an object with the name as its only key. -/
def variant {α : Type} (table : List (String × α)) : Decoder α
  | .text name => variantOf table name
  | .object (.cons (.ok name) content .closed) => do
    let a ← variantOf table name
    unit content
    return a
  | .object _ => .error (.invalidValue .map "map with a single key")
  | s => .error (wrongType "string or map" s)

end Decoder

/-! ## Records -/

/-- A field of a record. -/
structure Field (α : Type) where
  /-- The name by which errors speak of it. -/
  name : String
  /-- Other names under which it may be given. -/
  aliases : List String
  /-- The decoder of its value. -/
  decode : Decoder α
  /-- The value it has when it is left out. -/
  default? : Option α

/-- A field that has to be given. -/
def Field.required {α : Type} (name : String) (d : Decoder α) : Field α :=
  ⟨name, [], d, none⟩

/-- A field that may be left out. -/
def Field.withDefault {α : Type} (name : String) (d : Decoder α) (value : α) : Field α :=
  ⟨name, [], d, some value⟩

/-- A field that may be given under another name too. -/
def Field.orNamed {α : Type} (f : Field α) (other : String) : Field α :=
  { f with aliases := f.aliases ++ [other] }

/-- A field without its type. -/
structure Slot where
  /-- The name by which errors speak of it. -/
  name : String
  /-- Other names under which it may be given. -/
  aliases : List String
  /-- Fails where the field's decoder fails. -/
  check : Scan → Except DecodeError Unit

/-- The slot of a field. -/
def Field.slot {α : Type} (f : Field α) : Slot :=
  ⟨f.name, f.aliases, fun s => do let _ ← f.decode s⟩

/-- The slot that takes a key. -/
def slotOf? (slots : List Slot) (key : String) : Option Slot :=
  slots.find? fun slot => slot.name == key || slot.aliases.contains key

/-- A record that has been opened: the values given, by the names of their fields, and the error of
a field that is left out. -/
structure Opened where
  /-- The values given. -/
  values : List (String × Scan)
  /-- The error of a field that is left out. -/
  absent : String → DecodeError

/-- The values of an object's members by field, each checked in turn. -/
def openMembers (slots : List Slot) (seen : List String) :
    Members → Except DecodeError (List (String × Scan))
  | .closed => .ok []
  | .stop s => .error (.malformed s.read)
  | .cons key value tail =>
    match key with
    | .error f => .error (.malformed f)
    | .ok key =>
      match slotOf? slots key with
      | none => do
        ignore value
        openMembers slots seen tail
      | some slot =>
        if seen.contains slot.name then .error (.duplicateField slot.name)
        else do
          slot.check value
          let values ← openMembers slots (slot.name :: seen) tail
          return (slot.name, value) :: values

/-- The end of a list of items. -/
def itemsEnd : Items → Items
  | .cons _ tail => itemsEnd tail
  | ending => ending

/-- The number of items. -/
def itemCount : Items → Nat
  | .cons _ tail => itemCount tail + 1
  | _ => 0

/-- Checks that no item is left over, after so many items. -/
def closeItems (taken : Nat) (rest : Items) : Except DecodeError Unit :=
  match rest, itemsEnd rest with
  | .cons _ _, .counted =>
    .error (.invalidLength (taken + itemCount rest) "fewer elements in array")
  | .cons _ _, .loose => .ok ()
  | .cons _ _, _ => .error (.malformed .moreText)
  | .stop s, _ =>
    .error (.malformed (if s.read = .endInArray ∨ s.read = .commaAtEnd then s.read else .moreText))
  | _, _ => .ok ()

/-- The values of an array's items by field, each checked in turn, and the items left over. -/
def openItems : List Slot → Items → Except DecodeError (List (String × Scan) × Items)
  | slot :: slots, .cons head tail => do
    slot.check head
    let (values, rest) ← openItems slots tail
    return ((slot.name, head) :: values, rest)
  | _ :: _, .stop s => .error (.malformed s.read)
  | _, rest => .ok ([], rest)

/-- The position of a field among the slots. -/
def slotIndex (slots : List Slot) (name : String) : Nat :=
  slots.findIdx fun slot => slot.name == name

/-- Opens a record: an object by name, or an array by position. -/
def openRecord (title : String) (slots : List Slot) : Scan → Except DecodeError Opened
  | .object members => do
    let values ← openMembers slots [] members
    return ⟨values, .missingField⟩
  | .array xs => do
    let (values, rest) ← openItems slots xs
    let count := slots.length
    let expected := "struct " ++ title ++ " with " ++ toString count
      ++ if count = 1 then " element" else " elements"
    let absent (name : String) := DecodeError.invalidLength (slotIndex slots name) expected
    if values.length = count then closeItems count rest
    return ⟨values, absent⟩
  | s => .error (wrongType ("struct " ++ title) s)

/-- The value of a field of an opened record. -/
def Opened.get {α : Type} (r : Opened) (f : Field α) : Except DecodeError α :=
  match r.values.lookup f.name with
  | some s => f.decode s
  | none =>
    match f.default? with
    | some a => .ok a
    | none => .error (r.absent f.name)

/-! ## Whole values -/

/-- Decodes a given value. -/
def decodeValue {α : Type} (d : Decoder α) (j : Json) : Except DecodeError α :=
  d (Scan.ofJson j)

/-- Decodes a text, given by its glyphs, that is nothing but one value. -/
def decodeGlyphs {α : Type} (d : Decoder α) (gs : List Glyph) : Except DecodeError α := do
  let doc := Document.ofGlyphs gs
  let a ← d doc.value
  if doc.more then .error (.malformed .moreText) else .ok a

/-- Decodes a text that is nothing but one value. -/
def decodeText {α : Type} (d : Decoder α) (s : String) : Except DecodeError α :=
  decodeGlyphs d (glyphs s)

end NoteTools.Json
