/-!
# Styles of help texts

The parts of a help text are set off by colour and weight, which are switched on by escape
sequences of the terminal.

Main definitions:

* `Style`, `Style.escape`;
* `HelpPart.style`: the style of each part.
-/

namespace NoteTools

/-- A colour of a terminal. -/
inductive Colour where
  | green | yellow | cyan
  deriving DecidableEq, Repr

/-- The number of a colour. -/
def Colour.code : Colour → String
  | .green => "32"
  | .yellow => "33"
  | .cyan => "36"

/-- A style of text. -/
structure Style where
  /-- The colour. -/
  colour : Colour
  /-- The text is bold. -/
  bold : Bool := false
  deriving DecidableEq, Repr

/-- The escape sequence of a number. -/
def escapeSequence (code : String) : String :=
  "\x1b[" ++ code ++ "m"

/-- The sequences that switch a style on: the weight, then the colour. -/
def Style.escape (s : Style) : String :=
  (if s.bold then escapeSequence "1" else "") ++ escapeSequence s.colour.code

/-- A part of a help text. -/
inductive HelpPart where
  /-- The heading of a section. -/
  | header
  /-- The line that shows how the program is used. -/
  | usage
  /-- What is typed as it stands. -/
  | literal
  /-- What is typed in place of a name. -/
  | placeholder
  deriving DecidableEq, Repr

/-- The style of a part. -/
def HelpPart.style : HelpPart → Style
  | .header => { colour := .yellow, bold := true }
  | .usage => { colour := .yellow, bold := true }
  | .literal => { colour := .cyan, bold := true }
  | .placeholder => { colour := .green }

end NoteTools
