import NoteTools.Tool.Schema

/-!
# What advertised schemas mean

A schema is advertised as JSON, and a caller reads it by the rules of JSON Schema: each keyword of
an object is a condition on a value, and says nothing of values of other types. Descriptions, and
other keywords that are not advertised, are no conditions. A whole number is any number without a
fraction, also one that is written with a decimal point.

Main definitions:

* `Json.Meets`: the values that meet a schema, by its keywords;
* `Schema.Accepts`: the values that a schema accepts, by its form.

Results:

* `Schema.meets_advertised`: a schema is advertised as what it accepts.
-/

namespace NoteTools

/-! ## Numbers -/

namespace Number

/-- A number without a fraction. -/
def IsWhole : Number → Prop
  | .int _ => True
  | .real x => x.magnitude.1 % x.magnitude.2 = 0

/-- A number that is not below a whole one. -/
def AtLeast (low : Int) : Number → Prop
  | .int i => low ≤ i
  | .real x =>
    low * x.magnitude.2 ≤ if x.negative then -(x.magnitude.1 : Int) else x.magnitude.1

end Number

/-! ## JSON Schema -/

namespace Json

/-- The items of an array. -/
def items : Json → List Json
  | .arr items => items
  | _ => []

/-- The members of an object. -/
def members : Json → List (String × Json)
  | .obj members => members
  | _ => []

/-- The keys of an object. -/
def keys (j : Json) : List String :=
  j.members.map Prod.fst

/-- A value of a type by its name. -/
def HasType : Json → String → Prop
  | .null, name => name = "null"
  | .bool _, name => name = "boolean"
  | .num n, name => name = "number" ∨ name = "integer" ∧ n.IsWhole
  | .str _, name => name = "string"
  | .arr _, name => name = "array"
  | .obj _, name => name = "object"

/-- A value satisfies a keyword whose argument holds no schemas. -/
def MeetsPlain : String → Json → Json → Prop
  | "type", .str name, value => value.HasType name
  | "type", .arr names, value => ∃ name, .str name ∈ names ∧ value.HasType name
  | "enum", .arr choices, value => value ∈ choices
  | "minimum", .num (.int low), .num n => n.AtLeast low
  | "required", .arr names, .obj members => ∀ name, .str name ∈ names → name ∈ members.map Prod.fst
  | _, _, _ => True

mutual

/-- A value meets a schema: it satisfies all its keywords. -/
def Meets : Json → Json → Prop
  | .obj keywords, value =>
    MeetsAll (((Json.obj keywords).get? "properties").elim [] keys) keywords value
  | .bool b, _ => b = true
  | _, _ => False

/-- A value satisfies keywords. The declared keys are no additional ones. -/
def MeetsAll (declared : List String) : List (String × Json) → Json → Prop
  | [], _ => True
  | ("properties", .obj schemas) :: keywords, value =>
    MeetsFields schemas value.members ∧ MeetsAll declared keywords value
  | ("anyOf", .arr schemas) :: keywords, value =>
    MeetsAny schemas value ∧ MeetsAll declared keywords value
  | ("items", schema) :: keywords, value =>
    (∀ item ∈ value.items, Meets schema item) ∧ MeetsAll declared keywords value
  | ("additionalProperties", schema) :: keywords, value =>
    (∀ m ∈ value.members, m.1 ∉ declared → Meets schema m.2) ∧ MeetsAll declared keywords value
  | (keyword, argument) :: keywords, value =>
    MeetsPlain keyword argument value ∧ MeetsAll declared keywords value

/-- The members under the given keys meet their schemas. -/
def MeetsFields : List (String × Json) → List (String × Json) → Prop
  | [], _ => True
  | (key, schema) :: schemas, members =>
    (∀ j, (key, j) ∈ members → Meets schema j) ∧ MeetsFields schemas members

/-- A value meets one of the schemas. -/
def MeetsAny : List Json → Json → Prop
  | [], _ => False
  | schema :: schemas, value => Meets schema value ∨ MeetsAny schemas value

end

end Json

/-! ## Schemas by their form -/

namespace Schema

open Json

mutual

/-- The values that a schema accepts in a place that may be null. -/
def Accepts (nullable : Bool) : Schema → Json → Prop
  | .text _ choices, value =>
    (nullable = true ∧ value = .null) ∨ ∃ s, value = .str s ∧ (choices = [] ∨ s ∈ choices)
  | .truth, value => (nullable = true ∧ value = .null) ∨ ∃ b, value = .bool b
  | .whole minimum, value =>
    (nullable = true ∧ value = .null) ∨ ∃ n, value = .num n ∧ n.IsWhole ∧ n.AtLeast minimum
  | .list schema, value =>
    (nullable = true ∧ value = .null) ∨
      ∃ items, value = .arr items ∧ ∀ item ∈ items, Accepts false schema item
  | .record others required alternatives fields, value =>
    (nullable = true ∧ value = .null) ∨
      ∃ members, value = .obj members ∧
        (others = some false → ∀ m ∈ members, m.1 ∈ fields.map Prod.fst) ∧
        (∀ key ∈ required, key ∈ members.map Prod.fst) ∧
        (alternatives = [] ∨ ∃ keys ∈ alternatives, ∀ key ∈ keys, key ∈ members.map Prod.fst) ∧
        AcceptsFields fields members
  | .nullable schema, value => Accepts true schema value

/-- The members under the given keys are accepted by their schemas. -/
def AcceptsFields : List (String × Schema) → List (String × Json) → Prop
  | [], _ => True
  | (key, schema) :: fields, members =>
    (∀ j, (key, j) ∈ members → Accepts false schema j) ∧ AcceptsFields fields members

end

/-! ## Keywords as they are advertised -/

section
variable {declared : List String} {nullable : Bool} {value : Json}

theorem meetsAll_cons (keyword : String × Json) (keywords : List (String × Json)) :
    MeetsAll declared (keyword :: keywords) value ↔
      MeetsAll declared [keyword] value ∧ MeetsAll declared keywords value := by
  generalize hall : keyword :: keywords = all
  fun_cases MeetsAll declared all value <;> cases hall
  all_goals simp only [MeetsAll, and_true]

theorem meetsAll_append (keywords keywords' : List (String × Json)) :
    MeetsAll declared (keywords ++ keywords') value ↔
      MeetsAll declared keywords value ∧ MeetsAll declared keywords' value := by
  induction keywords with
  | nil => simp [MeetsAll]
  | cons keyword keywords ih =>
    rw [List.cons_append, meetsAll_cons keyword, ih, ← and_assoc, ← meetsAll_cons]

theorem hasType_null_iff : value.HasType "null" ↔ value = .null := by
  cases value <;> simp [HasType]

theorem meetsAll_typeMember (name : String) :
    MeetsAll declared [typeMember name nullable] value ↔
      (nullable = true ∧ value = .null) ∨ value.HasType name := by
  cases nullable with
  | false => simp [typeMember, MeetsAll, MeetsPlain]
  | true => simp [typeMember, MeetsAll, MeetsPlain, Json.strs, hasType_null_iff, or_comm]

theorem meetsAll_description (description : Option String) :
    MeetsAll declared (Json.textMember? "description" description) value := by
  cases description <;> simp [Json.textMember?, MeetsAll, MeetsPlain]

theorem meetsAll_choicesMember (choices : List String) :
    MeetsAll declared (choicesMember choices nullable) value ↔
      choices = [] ∨ (nullable = true ∧ value = .null) ∨ ∃ s ∈ choices, value = .str s := by
  unfold choicesMember
  by_cases h : choices = []
  · simp [h, MeetsAll]
  · cases nullable <;> simp [h, MeetsAll, MeetsPlain, eq_comm, or_comm]

theorem meetsAll_requiredMember (required : List String) :
    MeetsAll declared (requiredMember required) value ↔
      ∀ members, value = .obj members → ∀ key ∈ required, key ∈ members.map Prod.fst := by
  unfold requiredMember
  by_cases h : required = []
  · simp [h, MeetsAll]
  · cases value <;> simp [h, MeetsAll, MeetsPlain, Json.strs]

end

/-! ## Schemas as they are advertised -/

theorem keys_advertisedFields (fields : List (String × Schema)) :
    (Json.obj (advertisedFields fields)).keys = fields.map Prod.fst := by
  show (advertisedFields fields).map Prod.fst = _
  induction fields with
  | nil => rfl
  | cons field fields ih =>
    rw [advertisedFields, List.map_cons, List.map_cons, ih]

section
variable {declared : List String} {value : Json}

/-- The alternatives of an object are sets of keys of which one must be there. -/
theorem meetsAny_requiredMember (alternatives : List (List String)) :
    MeetsAny (alternatives.map fun keys => .obj (requiredMember keys)) value ↔
      ∃ keys ∈ alternatives, ∀ members, value = .obj members →
        ∀ key ∈ keys, key ∈ members.map Prod.fst := by
  induction alternatives with
  | nil => simp [MeetsAny]
  | cons keys alternatives ih =>
    rw [List.map_cons, MeetsAny, ih, Meets, meetsAll_requiredMember]
    simp only [List.mem_cons, exists_eq_or_imp]

theorem meetsAll_alternatives (alternatives : List (List String)) :
    MeetsAll declared
        (if alternatives = [] then []
          else [("anyOf", .arr (alternatives.map fun keys => .obj (requiredMember keys)))]) value ↔
      (alternatives = [] ∨ ∃ keys ∈ alternatives, ∀ members, value = .obj members →
        ∀ key ∈ keys, key ∈ members.map Prod.fst) := by
  by_cases h : alternatives = []
  · simp [h, MeetsAll]
  · rw [if_neg h, MeetsAll, meetsAny_requiredMember]
    simp [h, MeetsAll]

theorem meetsAll_others (others : Option Bool) :
    MeetsAll declared (others.toList.map fun b => ("additionalProperties", .bool b)) value ↔
      (others = some false → ∀ m ∈ value.members, m.1 ∈ declared) := by
  obtain _ | _ | _ := others <;> simp [MeetsAll, Meets, -Prod.forall]

end

/-- The keywords of an object before the schemas of its members. -/
def objectKeywords (nullable : Bool) (others : Option Bool) (required : List String)
    (alternatives : List (List String)) : List (String × Json) :=
  typeMember "object" nullable
    :: (others.toList.map fun b => ("additionalProperties", .bool b))
    ++ requiredMember required
    ++ (if alternatives = [] then []
        else [("anyOf", .arr (alternatives.map fun keys => .obj (requiredMember keys)))])

theorem acceptsFields_nil (fields : List (String × Schema)) : AcceptsFields fields [] := by
  induction fields with
  | nil => trivial
  | cons field fields ih => exact ⟨fun j hj => absurd hj List.not_mem_nil, ih⟩

theorem lookup_properties (nullable : Bool) (others : Option Bool) (required : List String)
    (alternatives : List (List String)) (schemas : List (String × Json)) :
    (objectKeywords nullable others required alternatives
      ++ [("properties", Json.obj schemas)]).lookup "properties" = some (Json.obj schemas) := by
  unfold objectKeywords typeMember requiredMember
  obtain _ | _ | _ := others <;> by_cases hrequired : required = [] <;>
    by_cases halternatives : alternatives = [] <;> simp [hrequired, halternatives, List.lookup_cons]

mutual

/-- **A schema is advertised as what it accepts.** -/
theorem meets_advertised (s : Schema) (nullable : Bool) (value : Json) :
    (s.advertised nullable).Meets value ↔ s.Accepts nullable value := by
  cases s with
  | text description choices =>
    rw [advertised, Meets, List.cons_append, meetsAll_cons, meetsAll_append, meetsAll_typeMember,
      meetsAll_choicesMember, and_iff_right (meetsAll_description description), Accepts]
    cases value <;> simp +contextual [HasType]
  | truth =>
    rw [advertised, Meets, meetsAll_typeMember, Accepts]
    cases value <;> simp [HasType]
  | whole minimum =>
    rw [advertised, Meets, meetsAll_cons, meetsAll_typeMember, Accepts]
    cases value <;> simp [HasType, MeetsAll, MeetsPlain, Json.int]
  | list items =>
    rw [advertised, Meets, meetsAll_cons, meetsAll_typeMember, Accepts]
    cases value <;> simp [HasType, MeetsAll, Json.items, meets_advertised items false]
  | record others required alternatives fields =>
    have hdeclared : ((Json.obj (objectKeywords nullable others required alternatives
        ++ [("properties", Json.obj (advertisedFields fields))])).get? "properties").elim [] keys =
          fields.map Prod.fst := by
      rw [Json.get?, lookup_properties, Option.elim_some, keys_advertisedFields]
    have hkeywords : (Schema.record others required alternatives fields).advertised nullable =
        .obj (objectKeywords nullable others required alternatives
          ++ [("properties", Json.obj (advertisedFields fields))]) := rfl
    rw [hkeywords, Meets, hdeclared, Accepts, objectKeywords, meetsAll_append, meetsAll_append,
      meetsAll_append, meetsAll_cons, meetsAll_typeMember, meetsAll_others, meetsAll_requiredMember,
      meetsAll_alternatives, MeetsAll, meetsFields_advertisedFields fields]
    cases value with
    | obj members => simp [HasType, MeetsAll, Json.members, and_assoc, -Prod.forall]
    | null =>
      have halternatives : alternatives = [] ∨ ∃ keys, keys ∈ alternatives := by
        cases alternatives with
        | nil => exact .inl rfl
        | cons keys rest => exact .inr ⟨keys, List.mem_cons_self⟩
      have hfields : AcceptsFields fields [] := acceptsFields_nil fields
      simp [HasType, MeetsAll, Json.members, halternatives, hfields]
    | bool b => simp [HasType]
    | num n => simp [HasType]
    | str text => simp [HasType]
    | arr items => simp [HasType]
  | nullable s =>
    rw [advertised, Accepts]
    exact meets_advertised s true value

theorem meetsFields_advertisedFields (fields : List (String × Schema))
    (members : List (String × Json)) :
    MeetsFields (advertisedFields fields) members ↔ AcceptsFields fields members := by
  cases fields with
  | nil => rw [advertisedFields, MeetsFields, AcceptsFields]
  | cons field fields =>
    obtain ⟨key, s⟩ := field
    rw [advertisedFields, MeetsFields, AcceptsFields, meetsFields_advertisedFields fields]
    simp only [meets_advertised s false]

end

end Schema

end NoteTools
