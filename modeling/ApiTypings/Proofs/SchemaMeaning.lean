/-
The values that a schema allows.

`Valid` reads the keywords that the generator knows.  A nullable node allows null whatever else
it says; of any other value every keyword that is there has to hold.  What the keywords
say is `Satisfies`, given what the schemas inside allow, so that each keyword is one named
condition; `Valid` ties the knot, and `valid_inline` is the equation to work with.
-/
import Mathlib
import ApiTypings.Proofs.SchemaStructure

namespace ApiTypings.OpenApi

namespace TypeName

/-- The names of which any may hold. -/
def names : TypeName → List String
  | single name => [name]
  | several names => names

end TypeName

/-- Whether a value is of the kind that a type name stands for; no value is of an unknown kind.
Integers are numbers. -/
def hasKind : String → Json → Bool
  | "boolean", .boolean _ => true
  | "string", .string _ => true
  | "number", .number _ => true
  | "integer", .number _ => true
  | "object", .object _ => true
  | "array", .array _ => true
  | "null", .null => true
  | _, _ => false

/-- What the keywords of a node say of a value, where `valid` is what the schemas inside say. -/
structure Satisfies (valid : Schema → Json → Prop) (node : SchemaObject) (value : Json) : Prop where
  allOf : ∀ members, node.allOf = some members → ∀ member ∈ members, valid member value
  oneOf : ∀ members, node.oneOf = some members → ∃ member ∈ members, valid member value
  anyOf : ∀ members, node.anyOf = some members → ∃ member ∈ members, valid member value
  enum : ∀ values, node.enum = some values → value ∈ values
  type : ∀ type, node.type = some type → ∃ name ∈ type.names, hasKind name value = true
  /-- declared properties that are there are valid, where the type names objects -/
  properties : ∀ type properties fields, node.type = some type → "object" ∈ type.names →
    node.properties = some properties → value = .object fields →
    ∀ property ∈ properties, ∀ found, Json.lookup property.1 fields = some found →
      valid property.2 found
  /-- required keys are there, where the type names objects -/
  required : ∀ type fields, node.type = some type → "object" ∈ type.names →
    value = .object fields → ∀ key ∈ node.required, (Json.lookup key fields).isSome
  items : ∀ items elements, node.items = some items → value = .array elements →
    ∀ element ∈ elements, valid items element
  not : ∀ excluded, node.not = some excluded → ¬valid excluded value
  /-- keys that are not declared hold what further properties hold -/
  additional : ∀ additional schema fields, node.additionalProperties = some additional →
    additional.schema? = some schema → value = .object fields →
    ∀ field ∈ fields, field.1 ∉ (node.properties.getD []).map Prod.fst → valid schema field.2

/-- Only what the schemas directly inside say matters. -/
theorem Satisfies.imp {p q : Schema → Json → Prop} {node : SchemaObject} {value : Json}
    (hpq : ∀ child ∈ node.children, ∀ v, p child v ↔ q child v) (h : Satisfies p node value) :
    Satisfies q node value where
  allOf members hall member hmember :=
    (hpq member (node.mem_children_allOf hall hmember) value).mp
      (h.allOf members hall member hmember)
  oneOf members hone := by
    obtain ⟨member, hmember, hvalid⟩ := h.oneOf members hone
    exact ⟨member, hmember, (hpq member (node.mem_children_oneOf hone hmember) value).mp hvalid⟩
  anyOf members hany := by
    obtain ⟨member, hmember, hvalid⟩ := h.anyOf members hany
    exact ⟨member, hmember, (hpq member (node.mem_children_anyOf hany hmember) value).mp hvalid⟩
  enum := h.enum
  type := h.type
  properties type properties fields htype hobject hproperties hvalue property hproperty found
      hfound :=
    (hpq property.2 (node.mem_children_properties hproperties hproperty) found).mp
      (h.properties type properties fields htype hobject hproperties hvalue property hproperty
        found hfound)
  required := h.required
  items items elements hitems hvalue element helement :=
    (hpq items (node.mem_children_items hitems) element).mp
      (h.items items elements hitems hvalue element helement)
  not excluded hnot hvalid :=
    h.not excluded hnot ((hpq excluded (node.mem_children_not hnot) value).mpr hvalid)
  additional additional schema fields hadditional hschema hvalue field hfield hkey :=
    (hpq schema (node.mem_children_additional hadditional hschema) field.2).mp
      (h.additional additional schema fields hadditional hschema hvalue field hfield hkey)

/-- Whether a schema allows a value, where `references` says what references allow. -/
def Valid (references : String → Json → Prop) : Schema → Json → Prop
  | .reference pointer, value => references pointer value
  | .inline node, value =>
    (node.nullable = some true ∧ value = .null)
      -- the membership is there for the recursion only: nodes speak of no other schemas
      ∨ Satisfies (fun child inner => ∃ _ : child ∈ node.children, Valid references child inner)
          node value
termination_by schema => sizeOf schema
decreasing_by
  exact Schema.sizeOf_lt_of_mem_children (show _ ∈ Schema.children (.inline node) from ‹_›)

theorem valid_inline {references : String → Json → Prop} {node : SchemaObject} {value : Json} :
    Valid references (.inline node) value
      ↔ (node.nullable = some true ∧ value = .null) ∨ Satisfies (Valid references) node value := by
  have hpq : ∀ child ∈ node.children, ∀ inner,
      (∃ _ : child ∈ node.children, Valid references child inner) ↔ Valid references child inner :=
    fun child hchild inner => ⟨fun ⟨_, h⟩ => h, fun h => ⟨hchild, h⟩⟩
  rw [Valid]
  exact or_congr_right ⟨.imp hpq, .imp fun child hchild inner => (hpq child hchild inner).symm⟩

/-- A node with a type name alone. -/
theorem valid_typeName {references : String → Json → Prop} {name : String} {value : Json} :
    Valid references (.inline { type := some (.single name) }) value
      ↔ hasKind name value = true := by
  rw [valid_inline]
  constructor
  · rintro (⟨hnullable, -⟩ | h)
    · cases hnullable
    · obtain ⟨only, honly, hkind⟩ := h.type _ rfl
      rwa [List.mem_singleton.mp honly] at hkind
  · intro hkind
    refine .inr ⟨nofun, nofun, nofun, nofun, ?_, nofun, nofun, nofun, nofun, nofun⟩
    rintro _ ⟨⟩
    exact ⟨name, List.mem_singleton.mpr rfl, hkind⟩

end ApiTypings.OpenApi
