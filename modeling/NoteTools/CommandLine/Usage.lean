import NoteTools.Text.Split

/-!
# The command line

The command line names the file of settings, as `-c FILE` or `--config FILE`. The value may also
stand in the same word, behind an equals sign or, for the short option, directly behind its letter.
Help and version are asked for with `-h`, `--help`, `-V` and `--version`; they answer at once, and
whatever stands behind them is not looked at.

A value in a word of its own is taken over only when the next known option is met, or at the end:
an unknown word in between is noticed first.

Main definitions:

* `UsageError`: what is answered instead of a file;
* `Usage.Word`, `Usage.State`, `Usage.step`: the words, what has been read, and the effect of a
  word;
* `Usage.parse`: the file that a command line names.
-/

namespace NoteTools

/-- What is answered instead of a file of settings. -/
inductive UsageError where
  /-- No file is named. -/
  | missingConfig
  /-- A word that is not known. -/
  | unknownArgument
  /-- A value that is missing or empty. -/
  | invalidValue
  /-- A second file is named. -/
  | repeatedConfig
  /-- A value where none is taken. -/
  | surplusValue
  /-- Help is asked for. -/
  | help
  /-- The version is asked for. -/
  | version
  deriving DecidableEq, Repr

namespace Usage

/-- A word of a command line by its form. -/
inductive Word where
  /-- Two hyphens: no options follow. -/
  | escape
  /-- A long option, and the value behind an equals sign. -/
  | long (name : String) (value : Option String)
  /-- Short options. -/
  | short (letters : List Char)
  /-- Any other word. -/
  | plain (text : String)
  deriving DecidableEq, Repr

/-- The form of a word. -/
def Word.ofText (s : String) : Word :=
  match s.toList with
  | ['-', '-'] => .escape
  | '-' :: '-' :: rest =>
    let (name, value) := Text.breakAt (· == '=') rest
    .long (String.ofList name) (value.tail?.map String.ofList)
  | '-' :: c :: rest => .short (c :: rest)
  | _ => .plain s

/-- An option whose value stands in a word of its own. -/
inductive Pending where
  /-- There is none. -/
  | none
  /-- The value has not been read yet. -/
  | awaited
  /-- The value has been read, but not taken over. -/
  | held (value : String)
  deriving DecidableEq, Repr

/-- What has been read of a command line. -/
structure State where
  /-- The file that has been taken over. -/
  config : Option String := .none
  /-- The option whose value has not been taken over. -/
  pending : Pending := .none
  deriving DecidableEq, Repr

/-- Takes over a file. -/
def State.take (s : State) (value : String) : Except UsageError State :=
  if s.config.isSome then .error .repeatedConfig
  else if value = "" then .error .invalidValue
  else .ok { config := some value, pending := .none }

/-- Takes over the value of a pending option. -/
def State.settle (s : State) : Except UsageError State :=
  match s.pending with
  | .none => .ok s
  | .awaited => .error .invalidValue
  | .held value => s.take value

/-- Reads the option that names the file, with the value that stands in the same word. -/
def State.configOption (s : State) (value : Option String) : Except UsageError State := do
  let s ← s.settle
  match value with
  | some value => s.take value
  | none => return { s with pending := .awaited }

/-- Answers at once, unless the value of a pending option is wrong. -/
def State.answer (s : State) (e : UsageError) : Except UsageError State := do
  let _ ← s.settle
  throw e

/-- The value behind the letter of a short option. -/
def attachedValue : List Char → Option String
  | [] => none
  | '=' :: cs => some (String.ofList cs)
  | cs => some (String.ofList cs)

/-- The effect of a word. -/
def State.step (s : State) : Word → Except UsageError State
  | .escape => .ok s
  | .long "config" value => s.configOption value
  | .long "help" none => s.answer .help
  | .long "version" none => s.answer .version
  | .long "help" (some _) => .error .surplusValue
  | .long "version" (some _) => .error .surplusValue
  | .long .. => .error .unknownArgument
  | .short ('c' :: rest) => s.configOption (attachedValue rest)
  | .short ('h' :: _) => s.answer .help
  | .short ('V' :: _) => s.answer .version
  | .short _ => .error .unknownArgument
  | .plain text =>
    match s.pending with
    | .awaited => .ok { s with pending := .held text }
    | _ => .error .unknownArgument

/-- The file at the end of a command line. -/
def State.finish (s : State) : Except UsageError String := do
  match (← s.settle).config with
  | some file => return file
  | none => throw .missingConfig

/-- Reads words. No word may stand behind two hyphens. -/
def readWords (s : State) : List Word → Except UsageError String
  | [] => s.finish
  | [.escape] => s.finish
  | .escape :: _ => .error .unknownArgument
  | w :: ws => do
    let s ← s.step w
    readWords s ws

/-- The file that the words behind the program's name give. -/
def parse (arguments : List String) : Except UsageError String :=
  readWords {} (arguments.map Word.ofText)

end Usage

end NoteTools
