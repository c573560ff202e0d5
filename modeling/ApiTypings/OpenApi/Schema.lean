/-
Schemas: what the generator reads of a JSON-Schema-like node.

A place for a schema, and some other places of a document, may hold a reference to
elsewhere in the document or the thing itself.
-/
import ApiTypings.Json.Basic

namespace ApiTypings

/-- A reference, or the thing in its place. -/
inductive Referable (α : Type)
  | reference (pointer : String)
  | inline (item : α)

namespace Referable

/-- The thing itself, where it is not a reference. -/
def inline? {α : Type} : Referable α → Option α
  | inline item => some item
  | reference _ => none

end Referable

namespace OpenApi

/-- The `type` of a schema: one name, or a list of names of which any may hold. -/
inductive TypeName
  | single (name : String)
  | several (names : List String)
  deriving DecidableEq

/-- `additionalProperties`: allowed or not, or a schema for their values. -/
inductive AdditionalProperties (σ : Type)
  | flag (allowed : Bool)
  | schema (schema : σ)

/-- A schema node. Its keywords do not exclude each other. -/
structure SchemaObject where
  title : Option String := none
  description : Option String := none
  type : Option TypeName := none
  nullable : Option Bool := none
  not : Option (Referable SchemaObject) := none
  additionalProperties : Option (AdditionalProperties (Referable SchemaObject)) := none
  allOf : Option (List (Referable SchemaObject)) := none
  oneOf : Option (List (Referable SchemaObject)) := none
  anyOf : Option (List (Referable SchemaObject)) := none
  enum : Option (List Json) := none
  properties : Option (List (String × Referable SchemaObject)) := none
  required : List String := []
  items : Option (Referable SchemaObject) := none
  deprecated : Bool := false
  /-- a null example is an example -/
  «example» : Option Json := none
  examples : Option Json := none
  /-- a null default is a default -/
  default : Option Json := none

abbrev Schema := Referable SchemaObject

namespace AdditionalProperties

/-- Whether the keyword says more than that there are no further properties. -/
def isOpen {σ : Type} : AdditionalProperties σ → Bool
  | flag allowed => allowed
  | schema _ => true

end AdditionalProperties
end OpenApi
end ApiTypings
