import AgenticDynamics.Library.Python

/-!
# JSON Schema

The keywords of JSON Schema that constrain types, constants, lengths, bounds and the members of an
object. A keyword says nothing about a value of a type it is not for.
-/

namespace JsonSchema

open Python

/-! ### Schemas -/

inductive JsonType
  | object
  | array
  | string
  | integer
  | boolean
  | null
  deriving DecidableEq, Repr

/-- A value has a type; a float without a fractional part is an integer. -/
def JsonType.Of : JsonType → Json → Prop
  | .object,  .obj _             => True
  | .array,   .arr _             => True
  | .string,  .str _             => True
  | .integer, .int _             => True
  | .integer, .float (.finite q) => ∃ n : ℤ, q = n
  | .boolean, .bool _            => True
  | .null,    .null              => True
  | _,        _                  => False

/-- A keyword; a schema is a list of them. `additionalProperties` comes with the members that
`properties` names. -/
inductive Keyword
  | type (types : List JsonType)
  | const (text : String)
  | minLength (n : ℕ)
  | maxLength (n : ℕ)
  | minimum (q : ℚ)
  | required (members : List String)
  | properties (schemas : List (String × List Keyword))
  | additionalProperties (named : List String) (schema : List Keyword)

/-- What `minimum` asks of a number. -/
def AtLeast (q : ℚ) : Json → Prop
  | .int n             => q ≤ n
  | .float (.finite x) => q ≤ x
  | _                  => True

mutual

def Keyword.Holds : Keyword → Json → Prop
  | .type types, v                   => ∃ t ∈ types, t.Of v
  | .const text, v                   => v = .str text
  | .minLength n, .str s             => n ≤ s.length
  | .maxLength n, .str s             => s.length ≤ n
  | .minimum q, v                    => AtLeast q v
  | .required members, .obj fields   => ∀ name ∈ members, (Dict.get? name fields).isSome
  | .properties schemas, .obj fields => MembersHold schemas fields
  | .additionalProperties named schema, .obj fields =>
    ∀ kv ∈ fields, kv.1 ∉ named → Satisfies schema kv.2
  | _, _                             => True

def Satisfies : List Keyword → Json → Prop
  | [], _                  => True
  | keyword :: keywords, v => keyword.Holds v ∧ Satisfies keywords v

/-- Each named member that is there satisfies its schema. -/
def MembersHold : List (String × List Keyword) → Dict Json → Prop
  | [], _                                => True
  | (name, schema) :: schemas, fields =>
    (∀ v, Dict.get? name fields = some v → Satisfies schema v) ∧ MembersHold schemas fields

end

/-! ### Rules -/

section Rules

variable {v : Json} {fields : Dict Json}

attribute [local simp] Keyword.Holds

@[simp] lemma satisfies_nil : Satisfies [] v := by simp [Satisfies]

@[simp] lemma satisfies_cons {keyword : Keyword} {keywords : List Keyword} :
    Satisfies (keyword :: keywords) v ↔ keyword.Holds v ∧ Satisfies keywords v := by
  rw [Satisfies]

@[simp] lemma membersHold_nil : MembersHold [] fields := by simp [MembersHold]

@[simp] lemma membersHold_cons {name : String} {schema : List Keyword}
    {schemas : List (String × List Keyword)} :
    MembersHold ((name, schema) :: schemas) fields ↔
      (∀ v, Dict.get? name fields = some v → Satisfies schema v) ∧ MembersHold schemas fields := by
  rw [MembersHold]

lemma membersHold_iff {schemas : List (String × List Keyword)} : MembersHold schemas fields ↔
    ∀ member ∈ schemas, ∀ v, Dict.get? member.1 fields = some v → Satisfies member.2 v := by
  induction schemas with
  | nil => simp
  | cons member schemas ih => rw [membersHold_cons, List.forall_mem_cons, ih]

@[simp] lemma holds_type {types : List JsonType} :
    (Keyword.type types).Holds v ↔ ∃ t ∈ types, t.Of v := by
  simp

@[simp] lemma holds_const {text : String} : (Keyword.const text).Holds v ↔ v = .str text := by
  simp

@[simp] lemma holds_minLength {n : ℕ} {s : String} :
    (Keyword.minLength n).Holds (.str s) ↔ n ≤ s.length := by
  simp

@[simp] lemma holds_maxLength {n : ℕ} {s : String} :
    (Keyword.maxLength n).Holds (.str s) ↔ s.length ≤ n := by
  simp

@[simp] lemma holds_minimum {q : ℚ} : (Keyword.minimum q).Holds v ↔ AtLeast q v := by
  simp

@[simp] lemma holds_required {members : List String} :
    (Keyword.required members).Holds (.obj fields) ↔
      ∀ name ∈ members, (Dict.get? name fields).isSome := by
  simp

@[simp] lemma holds_properties {schemas : List (String × List Keyword)} :
    (Keyword.properties schemas).Holds (.obj fields) ↔ MembersHold schemas fields := by
  simp

@[simp] lemma holds_additionalProperties {named : List String} {schema : List Keyword} :
    (Keyword.additionalProperties named schema).Holds (.obj fields) ↔
      ∀ kv ∈ fields, kv.1 ∉ named → Satisfies schema kv.2 := by
  simp

lemma of_string_iff : JsonType.string.Of v ↔ ∃ s, v = .str s := by
  cases v <;> simp [JsonType.Of]

lemma of_object_iff : JsonType.object.Of v ↔ ∃ fields, v = .obj fields := by
  cases v <;> simp [JsonType.Of]

end Rules

end JsonSchema
