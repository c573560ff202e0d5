/-
Schemas inside schemas.

A node holds schemas under seven keywords, alone, in lists and by name.  `children` lists them
all, so that what is shown of every node of a schema is shown once, by `Schema.induction`,
and "anywhere in a schema" is one relation, `Occurs`.
-/
import Mathlib
import ApiTypings.OpenApi.Schema

namespace ApiTypings.OpenApi

namespace AdditionalProperties

/-- The schema of further properties, if they are described by one. -/
def schema? {σ : Type} : AdditionalProperties σ → Option σ
  | flag _ => none
  | schema values => some values

end AdditionalProperties

namespace SchemaObject

/-- The schemas that stand directly inside a node. -/
def children (node : SchemaObject) : List Schema :=
  node.not.toList ++ (node.additionalProperties.bind AdditionalProperties.schema?).toList
    ++ node.allOf.getD [] ++ node.oneOf.getD [] ++ node.anyOf.getD []
    ++ (node.properties.getD []).map Prod.snd ++ node.items.toList

variable {node : SchemaObject} {child : Schema}

theorem mem_children_not (h : node.not = some child) : child ∈ node.children := by
  simp [children, h]

theorem mem_children_additional {additional : AdditionalProperties Schema}
    (h : node.additionalProperties = some additional) (hchild : additional.schema? = some child) :
    child ∈ node.children := by
  simp [children, h, hchild]

theorem mem_children_allOf {members : List Schema} (h : node.allOf = some members)
    (hchild : child ∈ members) : child ∈ node.children := by
  simp [children, h, hchild]

theorem mem_children_oneOf {members : List Schema} (h : node.oneOf = some members)
    (hchild : child ∈ members) : child ∈ node.children := by
  simp [children, h, hchild]

theorem mem_children_anyOf {members : List Schema} (h : node.anyOf = some members)
    (hchild : child ∈ members) : child ∈ node.children := by
  simp [children, h, hchild]

theorem mem_children_properties {properties : List (String × Schema)} {key : String}
    (h : node.properties = some properties) (hchild : (key, child) ∈ properties) :
    child ∈ node.children := by
  have hsnd : child ∈ properties.map Prod.snd := List.mem_map.mpr ⟨_, hchild, rfl⟩
  simp only [children, h, Option.getD_some, List.mem_append]
  exact Or.inl (Or.inr hsnd)

theorem mem_children_items (h : node.items = some child) : child ∈ node.children := by
  simp [children, h]

/-- Every child stands under one of the keywords. -/
theorem children_cases (h : child ∈ node.children) :
    node.not = some child
      ∨ (∃ additional, node.additionalProperties = some additional
          ∧ additional.schema? = some child)
      ∨ (∃ members, node.allOf = some members ∧ child ∈ members)
      ∨ (∃ members, node.oneOf = some members ∧ child ∈ members)
      ∨ (∃ members, node.anyOf = some members ∧ child ∈ members)
      ∨ (∃ properties key, node.properties = some properties ∧ (key, child) ∈ properties)
      ∨ node.items = some child := by
  simp only [children, List.mem_append, Option.mem_toList] at h
  rcases h with (((((h | h) | h) | h) | h) | h) | h
  · exact Or.inl h
  · exact Or.inr (Or.inl (Option.bind_eq_some_iff.mp h))
  · cases hmembers : node.allOf <;> simp_all
  · cases hmembers : node.oneOf <;> simp_all
  · cases hmembers : node.anyOf <;> simp_all
  · cases hproperties : node.properties <;> simp_all
  · simp [h]

theorem sizeOf_lt_of_mem_children (h : child ∈ node.children) : sizeOf child < sizeOf node := by
  have hlist : ∀ {members : List Schema}, child ∈ members → sizeOf child < sizeOf members :=
    fun hmem => List.sizeOf_lt_of_mem hmem
  rcases children_cases h with h | ⟨additional, h, hmem⟩ | ⟨members, h, hmem⟩ | ⟨members, h, hmem⟩
    | ⟨members, h, hmem⟩ | ⟨properties, key, h, hmem⟩ | h <;> cases node <;> cases h
  · simp only [mk.sizeOf_spec, Option.some.sizeOf_spec]
    omega
  · cases additional <;> cases hmem
    simp only [mk.sizeOf_spec, Option.some.sizeOf_spec, AdditionalProperties.schema.sizeOf_spec]
    omega
  · have := hlist hmem
    simp only [mk.sizeOf_spec, Option.some.sizeOf_spec]
    omega
  · have := hlist hmem
    simp only [mk.sizeOf_spec, Option.some.sizeOf_spec]
    omega
  · have := hlist hmem
    simp only [mk.sizeOf_spec, Option.some.sizeOf_spec]
    omega
  · have := List.sizeOf_lt_of_mem hmem
    simp only [mk.sizeOf_spec, Option.some.sizeOf_spec, Prod.mk.sizeOf_spec] at this ⊢
    omega
  · simp only [mk.sizeOf_spec, Option.some.sizeOf_spec]
    omega

end SchemaObject

namespace Schema

/-- The schemas that stand directly inside a schema; a reference has none. -/
def children : Schema → List Schema
  | .reference _ => []
  | .inline node => node.children

theorem sizeOf_lt_of_mem_children {schema child : Schema} (h : child ∈ children schema) :
    sizeOf child < sizeOf schema := by
  cases schema with
  | reference pointer => cases h
  | inline node =>
      have := SchemaObject.sizeOf_lt_of_mem_children h
      simp only [Referable.inline.sizeOf_spec]
      omega

/-- What holds of a schema whenever it holds of the schemas inside holds of all schemas. -/
theorem induction {P : Schema → Prop}
    (step : ∀ schema, (∀ child ∈ children schema, P child) → P schema) (schema : Schema) :
    P schema :=
  step schema fun child _ => induction step child
termination_by sizeOf schema
decreasing_by exact sizeOf_lt_of_mem_children ‹_›

/-- `inner` is the schema itself or stands somewhere inside it. -/
inductive Occurs (inner : Schema) : Schema → Prop
  | self : Occurs inner inner
  | inside {child outer : Schema} (hchild : child ∈ children outer) (h : Occurs inner child) :
      Occurs inner outer

/-- `P` holds of a schema and of everything inside it. -/
def Everywhere (P : Schema → Prop) (schema : Schema) : Prop :=
  ∀ inner, Occurs inner schema → P inner

variable {P : Schema → Prop} {schema : Schema}

theorem Everywhere.self (h : Everywhere P schema) : P schema := h schema .self

theorem Everywhere.child {child : Schema} (h : Everywhere P schema)
    (hchild : child ∈ children schema) : Everywhere P child :=
  fun inner hinner => h inner (.inside hchild hinner)

theorem everywhere_iff :
    Everywhere P schema ↔ P schema ∧ ∀ child ∈ children schema, Everywhere P child := by
  constructor
  · exact fun h => ⟨h.self, fun child hchild => h.child hchild⟩
  · rintro ⟨hself, hchildren⟩ inner hinner
    cases hinner with
    | self => exact hself
    | inside hchild hinner => exact hchildren _ hchild inner hinner

end Schema
end ApiTypings.OpenApi
