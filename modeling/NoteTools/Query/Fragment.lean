import NoteTools.Calendar.Stamp
import NoteTools.Numeric.Literal
import NoteTools.Query.Criterion
import NoteTools.Text.Quoted

/-!
# Fragments

A criterion becomes a condition in the search grammar, or free text, or it is dropped with a reason.
Only a date that has the wrong shape or does not exist is an error.

* A condition on a label or a relation is `#name` or `~name`, with `!` before the name for absence,
  and with an operator and a quoted literal for a comparison. A relation is compared through the
  title of its target unless its name has a path.
* A condition on a note property is `note.key`, an operator and a value, which is quoted for texts
  and dates and stands bare for numbers and truth values.

Main definitions:

* `Operator`, `Comparison`, `PropertyClass`;
* `DropReason`, `DateError` and their wording;
* `Criterion.fragment`: the fragment of a criterion;
* `Scope.condition?`: the condition of a scope.
-/

namespace NoteTools

/-! ## Operators -/

/-- A comparison with a value. -/
inductive Comparison where
  | eq | ne | ge | le | gt | lt | contains | startsWith | endsWith | regex
  deriving DecidableEq, Repr

/-- The token of a comparison. -/
def Comparison.token : Comparison → String
  | .eq => "="
  | .ne => "!="
  | .ge => ">="
  | .le => "<="
  | .gt => ">"
  | .lt => "<"
  | .contains => "*=*"
  | .startsWith => "=*"
  | .endsWith => "*="
  | .regex => "%="

/-- What a criterion asks of its property. -/
inductive Operator where
  | present
  | absent
  | compare (c : Comparison)
  deriving DecidableEq, Repr

namespace Operator

/-- The names of the operators. -/
def names : List (String × Operator) :=
  [("exists", .present), ("not_exists", .absent), ("=", .compare .eq), ("!=", .compare .ne),
   (">=", .compare .ge), ("<=", .compare .le), (">", .compare .gt), ("<", .compare .lt),
   ("contains", .compare .contains), ("starts_with", .compare .startsWith),
   ("ends_with", .compare .endsWith), ("regex", .compare .regex)]

/-- The operator of a name, which is trimmed and may have capitals. Note properties know one more
name for inequality. -/
def ofName? (kind : Criterion.Kind) (name : String) : Option Operator :=
  let name := Text.lowerAscii (Text.trim name)
  if name = "not_equal" ∧ kind = .noteProperty then some (.compare .ne)
  else names.lookup name

/-- The operator of a criterion: presence when none is given. -/
def of? (c : Criterion) : Option Operator :=
  match c.op with
  | none => some .present
  | some name => ofName? c.kind name

end Operator

/-! ## Note properties -/

/-- The kind of value that a note property has. -/
inductive PropertyClass where
  | boolean
  | numeric
  | date
  | text
  deriving DecidableEq, Repr

/-- The keys whose value is true or false. -/
def booleanKeys : List String :=
  ["isArchived", "isProtected"]

/-- The keys whose value is a number. -/
def numericKeys : List String :=
  ["labelCount", "ownedLabelCount", "relationCount", "ownedRelationCount",
   "relationCountIncludingLinks", "attributeCount", "ownedAttributeCount", "targetRelationCount",
   "targetRelationCountIncludingLinks", "parentCount", "childrenCount", "contentSize", "noteSize",
   "revisionCount"]

/-- The keys whose value is a day or a moment. -/
def dateKeys : List String :=
  ["dateCreated", "dateModified", "utcDateCreated", "utcDateModified"]

/-- The keys whose value is a text. -/
def textKeys : List String :=
  ["noteId", "title", "type", "mime", "content", "text", "rawContent", "parents.title",
   "parents.noteId", "children.title", "children.noteId", "ancestors.title", "ancestors.noteId"]

/-- The class of a key. -/
def PropertyClass.of? (key : String) : Option PropertyClass :=
  if key ∈ booleanKeys then some .boolean
  else if key ∈ numericKeys then some .numeric
  else if key ∈ dateKeys then some .date
  else if key ∈ textKeys then some .text
  else none

/-! ## Reasons and errors -/

/-- Why a criterion is dropped. -/
inductive DropReason where
  | emptyProperty
  | missingValue
  | unknownOperator (name : String)
  /-- The operator is known, but means nothing for a note property. -/
  | unsupportedOperator (name : String)
  | unknownProperty (key : String)
  | notBoolean (value : String)
  | notNumber (value : String)
  deriving DecidableEq, Repr

/-- The wording of a reason. -/
def DropReason.message : DropReason → String
  | .emptyProperty => "property is empty"
  | .missingValue => "operator requires a value"
  | .unknownOperator name => "unknown operator '" ++ name ++ "'"
  | .unsupportedOperator name =>
    "operator '" ++ name ++ "' is not supported for note properties"
  | .unknownProperty key => "unknown note property '" ++ key ++ "'"
  | .notBoolean value => "expected true or false, got '" ++ value ++ "'"
  | .notNumber value => "expected a number, got '" ++ value ++ "'"

/-- Why a date is refused. -/
inductive DateError where
  /-- The value has neither of the shapes. -/
  | badShape (property value : String)
  /-- The value has a shape, but names no day or time. -/
  | unreal (property value : String)
  deriving DecidableEq, Repr

/-- The wording of a date error. -/
def DateError.message : DateError → String
  | .badShape property value =>
    "Invalid date format for " ++ property ++ ": '" ++ value
      ++ "'. Expected YYYY-MM-DD or YYYY-MM-DDTHH:MM:SS[.sss]Z."
  | .unreal property value =>
    "Invalid date for " ++ property ++ ": '" ++ value
      ++ "' is not a real calendar date or time."

/-- A day or a moment that exists, unchanged. -/
def checkDate (value property : String) : Except DateError String :=
  match Calendar.Stamp.read? value with
  | none => .error (.badShape property value)
  | some stamp => if stamp.IsReal then .ok value else .error (.unreal property value)

/-! ## Fragments -/

/-- What a criterion becomes. -/
inductive Fragment where
  /-- A condition of the grammar. -/
  | condition (text : String)
  /-- Free text, which leads the query. -/
  | freeText (text : String)
  /-- Nothing. -/
  | dropped (reason : DropReason)
  deriving DecidableEq, Repr

/-- The operator of a criterion is unknown. -/
def Fragment.unknownOperator (c : Criterion) : Fragment :=
  .dropped (.unknownOperator (c.op.getD ""))

/-- The fragment of a label (`#`) or a relation (`~`). -/
def Criterion.attribute (sigil : String) (c : Criterion) : Fragment :=
  let name := Text.trim c.property
  if name = "" then .dropped .emptyProperty
  else
    match Operator.of? c with
    | none => .unknownOperator c
    | some .present => .condition (sigil ++ name)
    | some .absent => .condition (sigil ++ "!" ++ name)
    | some (.compare op) =>
      match c.givenValue? with
      | none => .dropped .missingValue
      | some value =>
        let path := if c.kind = .relation ∧ '.' ∉ name.toList then ".title" else ""
        .condition (sigil ++ name ++ path ++ " " ++ op.token ++ " " ++ Text.Quoted.quote value)

/-- The written form of a value of a class, or the reason why there is none. -/
def PropertyClass.render (key value : String) :
    PropertyClass → Except DateError (Except DropReason String)
  | .boolean =>
    .ok (if value = "true" ∨ value = "false" then .ok value else .error (.notBoolean value))
  | .numeric =>
    let number := Text.trim value
    .ok (if Numeric.isFiniteNumber number then .ok number else .error (.notNumber value))
  | .date => do return .ok (Text.Quoted.quote (← checkDate value key))
  | .text => .ok (.ok (Text.Quoted.quote value))

/-- The fragment of a note property. -/
def Criterion.noteFragment (c : Criterion) : Except DateError Fragment :=
  let key := Criterion.keyOf c.property
  if key = "" then .ok (.dropped .emptyProperty)
  else
    match PropertyClass.of? key with
    | none => .ok (.dropped (.unknownProperty key))
    | some cls =>
      match Operator.of? c with
      | none => .ok (.unknownOperator c)
      | some .present => .ok (.dropped (.unsupportedOperator "exists"))
      | some .absent => .ok (.dropped (.unsupportedOperator "not_exists"))
      | some (.compare op) =>
        match c.givenValue? with
        | none => .ok (.dropped .missingValue)
        | some value => do
          match ← cls.render key value with
          | .error reason => return .dropped reason
          | .ok written => return .condition ("note." ++ key ++ " " ++ op.token ++ " " ++ written)

/-- The fragment of a criterion. -/
def Criterion.fragment (c : Criterion) : Except DateError Fragment :=
  match c.kind with
  | .label => .ok (c.attribute "#")
  | .relation => .ok (c.attribute "~")
  | .noteProperty => c.noteFragment
  | .freeText =>
    match c.freeText? with
    | some text => .ok (.freeText text)
    | none => .ok (.dropped .missingValue)

/-- The property that a scope compares. -/
def Scope.Kind.path : Scope.Kind → String
  | .children => "note.parents.noteId"
  | .descendants => "note.ancestors.noteId"

/-- The condition of a scope, unless its reference is blank. -/
def Scope.condition? (s : Scope) : Option String :=
  let reference := Text.trim s.reference
  if reference = "" then none
  else some (s.kind.path ++ " = " ++ Text.Quoted.quote reference)

end NoteTools
