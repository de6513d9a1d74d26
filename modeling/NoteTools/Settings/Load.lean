import NoteTools.Settings.Check
import NoteTools.Settings.Codec
import NoteTools.Text.Shown
import NoteTools.Text.Utf8
import NoteTools.Toml.Document

/-!
# Loading settings

Settings are loaded from a file: its octets are read as UTF-8, the text as a table of sections, the
sections as settings; those are brought to the normal form and checked.

Main definitions:

* `LoadError` and its wording;
* `Settings.parse?`, `Settings.load`.
-/

namespace NoteTools

/-- Why settings cannot be loaded. -/
inductive LoadError where
  /-- The file is not there, or is no text. -/
  | unreadable (path : String)
  /-- The text does not hold settings. -/
  | malformed (path : String)
  /-- The settings are not acceptable. -/
  | violation (v : Violation)
  deriving DecidableEq, Repr

/-- The wording of an error. -/
def LoadError.message : LoadError → String
  | .unreadable path => "Failed to read config file at " ++ Text.shownPath path ++ "."
  | .malformed path => "Failed to parse config file at " ++ Text.shownPath path ++ "."
  | .violation v => v.message

/-- The settings that a text holds, as they are written. -/
def Settings.parse? (text : String) : Option Settings := do
  let s ← Toml.scan text
  (Settings.decode s).toOption

/-- The settings of a file, in normal form. A file that cannot be opened has no octets. -/
def Settings.load (path : String) (octets : Option (List UInt8)) : Except LoadError Settings :=
  match octets.bind Text.Utf8.decode? with
  | none => .error (.unreadable path)
  | some text =>
    match Settings.parse? text with
    | none => .error (.malformed path)
    | some settings =>
      match settings.normalize.check with
      | .ok _ => .ok settings.normalize
      | .error v => .error (.violation v)

end NoteTools
