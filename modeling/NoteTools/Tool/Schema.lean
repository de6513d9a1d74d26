import NoteTools.Json.Basic

/-!
# Schemas

A schema says which values are accepted in a place. It is advertised to callers as JSON.

Main definitions:

* `Schema`, `Schema.toJson`.
-/

namespace NoteTools

/-- Which values are accepted in a place. -/
inductive Schema where
  /-- A text; of the choices, if there are any. -/
  | text (description : Option String) (choices : List String)
  /-- A truth value. -/
  | truth
  /-- A whole number from a smallest one on. -/
  | whole (minimum : Int)
  /-- An array of values of one schema. -/
  | list (items : Schema)
  /-- An object: whether keys without a schema are accepted, unless that is left open; the keys that
  must be there; sets of keys of which one must be there; and the schemas by key. -/
  | record (others : Option Bool) (required : List String) (alternatives : List (List String))
      (fields : List (String × Schema))
  /-- Null, or a value of a schema. -/
  | nullable (s : Schema)

namespace Schema

/-- Any text. -/
def anyText : Schema := .text none []

/-- The type of a place. -/
def typeMember (name : String) (nullable : Bool) : String × Json :=
  ("type", if nullable then .strs [name, "null"] else .str name)

/-- The choices of a place. -/
def choicesMember (choices : List String) (nullable : Bool) : List (String × Json) :=
  if choices = [] then []
  else [("enum", .arr (choices.map .str ++ if nullable then [.null] else []))]

/-- The keys that must be there, unless there are none. -/
def requiredMember (keys : List String) : List (String × Json) :=
  if keys = [] then [] else [("required", .strs keys)]

mutual

/-- A schema as it is advertised, for a place that may be null. -/
def advertised (nullable : Bool) : Schema → Json
  | .text description choices =>
    .obj (typeMember "string" nullable :: Json.textMember? "description" description
      ++ choicesMember choices nullable)
  | .truth => .obj [typeMember "boolean" nullable]
  | .whole minimum => .obj [typeMember "integer" nullable, ("minimum", .int minimum)]
  | .list items => .obj [typeMember "array" nullable, ("items", advertised false items)]
  | .record others required alternatives fields =>
    .obj (typeMember "object" nullable
      :: (others.toList.map fun b => ("additionalProperties", .bool b))
      ++ requiredMember required
      ++ (if alternatives = [] then []
          else [("anyOf", .arr (alternatives.map fun keys => .obj (requiredMember keys)))])
      ++ [("properties", .obj (advertisedFields fields))])
  | .nullable s => advertised true s

/-- The schemas of an object as they are advertised. -/
def advertisedFields : List (String × Schema) → List (String × Json)
  | [] => []
  | (key, s) :: fields => (key, advertised false s) :: advertisedFields fields

end

/-- A schema as it is advertised. -/
def toJson (s : Schema) : Json :=
  s.advertised false

end Schema

end NoteTools
