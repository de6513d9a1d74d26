import NoteTools.Event
import NoteTools.Numeric.Digits
import NoteTools.Text.Blank
import NoteTools.Text.Split
import NoteTools.Text.Unprintable

/-!
# Log filters

A log filter is a list of directives with commas between them: a level alone is for all targets, and
`target=level` for the targets that start with a text. Of several directives for a target the one
with the longest text counts, and of equal ones the last. A directive may also name a span or fields
between brackets; one that names a span, or a field with a value, has no say on events outside
spans. A list with a directive that cannot be read is replaced by the level `info`.

Main definitions:

* `LogFilter.Directive`, `LogFilter.Directive.read?`;
* `LogFilter`, `LogFilter.ofText`;
* `LogFilter.level`: the most verbose level that is let through for a target.
-/

namespace NoteTools

/-- The name of a level. -/
def Event.Level.name : Event.Level → String
  | .error => "error"
  | .warn => "warn"
  | .info => "info"
  | .debug => "debug"
  | .trace => "trace"

namespace LogFilter

open Text

/-- The most verbose level that is let through; none when nothing is. -/
abbrev Threshold := Option Event.Level

/-- The name of a threshold. -/
def thresholdName (t : Threshold) : String :=
  (t.map Event.Level.name).getD "off"

/-- The thresholds from zero on. -/
def thresholds : List Threshold :=
  [none, some .error, some .warn, some .info, some .debug, some .trace]

/-- The threshold that a text names, by number or by name. -/
def threshold? (cs : List Char) : Option Threshold :=
  let digits := match cs with
    | '+' :: rest => rest
    | _ => cs
  let named := thresholds.find? fun t => thresholdName t == lowerAscii (String.ofList cs)
  match Numeric.readDigits? 10 digits with
  | some n => thresholds[n]?.or named
  | none => named

/-- A field that a directive names. -/
structure FieldName where
  /-- The name. -/
  name : List Char
  /-- A value is asked for too. -/
  hasValue : Bool
  deriving DecidableEq, Repr

/-- A directive. -/
structure Directive where
  /-- The start of the targets that it is for; without one it is for all. -/
  target : Option (List Char)
  /-- It is for a span. -/
  inSpan : Bool
  /-- The fields that it asks for. -/
  fields : List FieldName
  /-- The most verbose level that it lets through. -/
  level : Threshold
  deriving DecidableEq, Repr

namespace Directive

/-- The ranges of symbols and punctuation from U+0080 on. -/
def symbolRanges : List (Nat × Nat) :=
  [(0x80, 0xA9), (0xAB, 0xB1), (0xB4, 0xB4), (0xB6, 0xB8), (0xBB, 0xBB), (0xBF, 0xBF),
   (0xD7, 0xD7), (0xF7, 0xF7), (0x2C2, 0x2C5), (0x2D2, 0x2DF), (0x2010, 0x2027),
   (0x2030, 0x205E), (0x207A, 0x207E), (0x208A, 0x208E), (0x20A0, 0x20C0), (0x2190, 0x245F),
   (0x249C, 0x24B5), (0x2500, 0x2775), (0x2794, 0x2BFF), (0x2E00, 0x2E5D), (0x3001, 0x3004),
   (0x3008, 0x3020), (0x3030, 0x3030), (0xFE10, 0xFE6F), (0xFF01, 0xFF0F), (0xFF1A, 0xFF20),
   (0xFF3B, 0xFF40), (0xFF5B, 0xFF65), (0xFFE0, 0xFFFD), (0x1F000, 0x1F0FF), (0x1F300, 0x1FAFF)]

/-- A letter or a digit. Beyond ASCII every character counts that is no blank, no symbol, no
punctuation and printable. -/
def isLetterOrDigit (c : Char) : Bool :=
  c.isAlphanum || (0x80 ≤ c.toNat && !isUnprintable c
    && !symbolRanges.any fun (low, high) => low ≤ c.toNat && c.toNat ≤ high)

/-- A character that a directive without a span may start with. -/
def isStart (c : Char) : Bool :=
  isLetterOrDigit c || c == '-' || c == ':' || c == '_'

/-- A level behind an equals sign; without one every level is let through. -/
def levelOf? (cs : List Char) : Option Threshold :=
  if cs.isEmpty then some (some .trace) else threshold? cs

/-- The directive of a word without an equals sign: a level, or a target with every level. -/
def ofWord (word : List Char) : Directive :=
  match threshold? word with
  | some level => ⟨none, false, [], level⟩
  | none => ⟨some word, false, [], some .trace⟩

/-- The part of a list from one place up to another. -/
def slice (cs : List Char) (start stop : Nat) : List Char :=
  (cs.drop start).take (stop - start)

/-- The place of the first character of a class from a place on. -/
def findFrom (p : Char → Bool) (cs : List Char) (start : Nat) : Nat :=
  start + (breakAt p (cs.drop start)).1.length

/-- The level at the end of a directive that has brackets. -/
def readEnd? (raw text : List Char) (start : Nat) (d : Directive) : Option Directive :=
  match text.drop start with
  | [] => some d
  | '=' :: _ => (levelOf? (raw.drop (start + 1))).map fun level => { d with level }
  | _ => none

/-- A span, or a field in braces, from behind the opening bracket. -/
def readBrackets? (raw text : List Char) (start : Nat) (target : Option (List Char)) :
    Option Directive :=
  let stop := findFrom (fun c => c == ']' || c == '\x7b') text start
  match text.drop stop with
  | ']' :: _ => readEnd? raw text (stop + 1) ⟨target, true, [], some .trace⟩
  | '\x7b' :: _ =>
    let inSpan := !(slice raw start stop).isEmpty
    let close := findFrom (· == '\x7d') text (stop + 1)
    let (name, value) := breakAt (· == '=') (slice raw (stop + 1) close)
    match text.drop close with
    | '\x7d' :: ']' :: _ =>
      if name.isEmpty && value.isEmpty then none
      else readEnd? raw text (close + 2)
        ⟨target, inSpan, [⟨name, !value.isEmpty⟩], some .trace⟩
    | _ => none
  | _ => none

/-- The directive that a text spells. Its parts are found in the text without the blanks around it,
and taken from the same places of the text with them. -/
def read? (raw : List Char) : Option Directive :=
  let text := strip isBlank raw
  match text with
  | [] => none
  | '[' :: _ => readBrackets? raw text 1 none
  | c :: _ =>
    let stop := findFrom (fun c => c == '=' || c == '[') text 0
    if !isStart c then none
    else match text.drop stop with
      | [] => some (ofWord raw)
      | '=' :: _ =>
        (levelOf? (raw.drop (stop + 1))).map fun level => ⟨some (raw.take stop), false, [], level⟩
      | _ => readBrackets? raw text (stop + 1) (some (raw.take stop))

/-- A directive that has a say on events outside spans. -/
def isStatic (d : Directive) : Bool :=
  !d.inSpan && !d.fields.any FieldName.hasValue

/-- The directive is for a target. -/
def covers (d : Directive) (target : List Char) : Bool :=
  d.target.all fun start => start.isPrefixOf target

/-- How much a directive asks for: whether it names a target, the length of that, and the number of
fields. -/
def rank (d : Directive) : Nat × Nat :=
  ((d.target.map fun t => t.length + 1).getD 0, d.fields.length)

end Directive

end LogFilter

/-- A log filter, by its directives. -/
structure LogFilter where
  /-- The directives, in order. -/
  directives : List LogFilter.Directive
  deriving DecidableEq, Repr

namespace LogFilter

/-- The filter of a text, if all its directives can be read. Empty directives are passed over. -/
def read? (text : List Char) : Option LogFilter :=
  let parts := (Text.splitOn (· == ',') text).filter fun part => !part.isEmpty
  (parts.mapM Directive.read?).map LogFilter.mk

/-- The filter that lets the level `info` through. -/
def default : LogFilter :=
  ⟨[⟨none, false, [], some .info⟩]⟩

/-- The filter of a setting. -/
def ofText (s : String) : LogFilter :=
  (read? (Text.trim s).toList).getD default

/-- Of two directives the one that counts, the second one being later. -/
def stronger (a : Option Directive) (b : Directive) : Option Directive :=
  match a with
  | none => some b
  | some a =>
    let (t, n) := a.rank
    let (u, m) := b.rank
    some (if t < u ∨ (t = u ∧ n ≤ m) then b else a)

/-- The most verbose level that is let through for a target. -/
def level (f : LogFilter) (target : String) : Threshold :=
  let candidates := f.directives.filter fun d => d.isStatic && d.covers target.toList
  (candidates.foldl stronger none).bind Directive.level

end LogFilter

end NoteTools
