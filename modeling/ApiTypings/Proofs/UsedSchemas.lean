/-
The schemas that a document uses, and the references in them.

Declarations are made from schemas in four kinds of places: components, parameters, request bodies
and responses.  Which parameters, bodies and responses there are is told by the items of the
paths, each together with the item that it refers to.  A reference in one of these places is
followed to the thing itself.  A reference inside a schema is another matter: it is only
named, and never followed.

A part of a document is proper if the schemas that are reached from it have distinct names and
hold no other references than given ones.
-/
import Mathlib
import ApiTypings.Overload
import ApiTypings.Proofs.DistinctKeys

namespace ApiTypings

open OpenApi Decoder

namespace OpenApi

/-! ### Places -/

namespace Document

variable (document : Document)

/-- The item of a path, together with the one that it refers to. -/
def HasItem (item : PathItem) : Prop :=
  ∃ entry ∈ document.description.paths, Overload.effectiveItem document entry.2 = .ok item

def HasOperation (operation : Operation) : Prop :=
  ∃ item method, document.HasItem item ∧ item.slots method = .operation operation

/-- A parameter of a path or of an operation. -/
def HasParameter (entry : Referable Parameter) : Prop :=
  (∃ item, document.HasItem item ∧ entry ∈ item.parameters.getD [])
    ∨ ∃ operation, document.HasOperation operation ∧ entry ∈ operation.parameters

def HasBody (entry : Referable RequestBody) : Prop :=
  ∃ operation, document.HasOperation operation ∧ operation.requestBody = some entry

def HasResponse (entry : Referable Response) : Prop :=
  ∃ operation key, document.HasOperation operation ∧ (key, entry) ∈ operation.responses.getD []

/-- The schemas that types are made from. -/
inductive Uses : Schema → Prop
  | component {key : String} {schema : Schema}
      (h : (key, schema) ∈ document.description.components.schemas) : Uses schema
  | parameter {entry : Referable Parameter} {item : Parameter} {schema : Schema}
      (h : document.HasParameter entry)
      (hitem : document.fetch OpenApi.parameter.decode entry = .ok item)
      (hschema : schema ∈ item.schema) : Uses schema
  | body {entry : Referable RequestBody} {item : RequestBody} {content : String × MediaType}
      {schema : Schema} (h : document.HasBody entry)
      (hitem : document.fetch OpenApi.requestBody.decode entry = .ok item)
      (hcontent : content ∈ item.content) (hschema : schema ∈ content.2.schema) : Uses schema
  | response {entry : Referable Response} {item : Response} {content : String × MediaType}
      {schema : Schema} (h : document.HasResponse entry)
      (hitem : document.fetch OpenApi.response.decode entry = .ok item)
      (hcontent : content ∈ item.content) (hschema : schema ∈ content.2.schema) : Uses schema

/-- The references that are named: they stand in a schema, at any depth. -/
def Names (pointer : String) : Prop :=
  ∃ schema, document.Uses schema ∧ Schema.Occurs (.reference pointer) schema

end Document

/-! ### Proper parts -/

/-- The names in a schema are distinct, and it holds no other references than those of `P`. -/
structure Schema.Proper (P : String → Prop) (schema : Schema) : Prop where
  distinct : Schema.Distinct schema
  references : ∀ pointer, Schema.Occurs (.reference pointer) schema → P pointer

def Parameter.Proper (P : String → Prop) (parameter : Parameter) : Prop :=
  ∀ schema ∈ parameter.schema, Schema.Proper P schema

def MediaType.Proper (P : String → Prop) (media : MediaType) : Prop :=
  ∀ schema ∈ media.schema, Schema.Proper P schema

def RequestBody.Proper (P : String → Prop) (body : RequestBody) : Prop :=
  ∀ entry ∈ body.content, entry.2.Proper P

def Response.Proper (P : String → Prop) (response : Response) : Prop :=
  ∀ entry ∈ response.content, entry.2.Proper P

/-- All that is fetched for an operation is proper. -/
structure Operation.Proper (document : Document) (P : String → Prop) (operation : Operation) :
    Prop where
  parameters : ∀ entry ∈ operation.parameters, ∀ item,
    document.fetch OpenApi.parameter.decode entry = .ok item → item.Proper P
  requestBody : ∀ entry ∈ operation.requestBody, ∀ item,
    document.fetch OpenApi.requestBody.decode entry = .ok item → item.Proper P
  responses : ∀ entry ∈ operation.responses.getD [], ∀ item,
    document.fetch OpenApi.response.decode entry.2 = .ok item → item.Proper P

structure PathItem.Proper (document : Document) (P : String → Prop) (item : PathItem) : Prop where
  parameters : ∀ entry ∈ item.parameters.getD [], ∀ parameter,
    document.fetch OpenApi.parameter.decode entry = .ok parameter → parameter.Proper P
  slots : ∀ method operation, item.slots method = .operation operation →
    operation.Proper document P

/-! ### What a document uses is proper -/

/-- An item that is laid over another holds what one of the two holds. -/
theorem PathItem.Distinct.overlay {item other : PathItem} (hitem : item.Distinct)
    (hother : other.Distinct) : (item.overlay other).Distinct := by
  refine ⟨fun parameters hparameters => ?_, fun method operation hoperation => ?_⟩
  · rcases Option.or_eq_some_iff.mp hparameters with h | ⟨-, h⟩
    · exact hother.parameters parameters h
    · exact hitem.parameters parameters h
  · simp only [PathItem.overlay] at hoperation
    split at hoperation
    · exact hitem.slots method operation hoperation
    · exact hother.slots method operation hoperation

namespace Document.Distinct

variable {document : Document} (h : document.Distinct)
include h

theorem item {item : PathItem} (hitem : document.HasItem item) : item.Distinct := by
  obtain ⟨entry, hentry, heffective⟩ := hitem
  unfold Overload.effectiveItem at heffective
  split at heffective
  · cases heffective
    exact h.paths entry hentry
  · split at heffective
    · rename_i other hother
      cases heffective
      exact (h.paths entry hentry).overlay (h.target ensures_pathItem hother)
    · cases heffective

theorem operation {operation : Operation} (hoperation : document.HasOperation operation) :
    operation.Distinct := by
  obtain ⟨item, method, hitem, hslot⟩ := hoperation
  exact (h.item hitem).slots method operation hslot

theorem parameter {entry : Referable Parameter} (hentry : document.HasParameter entry) :
    entry.InPlace Parameter.Distinct := by
  rcases hentry with ⟨item, hitem, hmem⟩ | ⟨operation, hoperation, hmem⟩
  · cases hparameters : item.parameters with
    | none =>
        rw [hparameters] at hmem
        cases hmem
    | some parameters =>
        rw [hparameters] at hmem
        exact (h.item hitem).parameters parameters hparameters entry hmem
  · exact (h.operation hoperation).parameters entry hmem

theorem response {entry : Referable Response} (hentry : document.HasResponse entry) :
    entry.InPlace Response.Distinct := by
  obtain ⟨operation, key, hoperation, hmem⟩ := hentry
  cases hresponses : operation.responses with
  | none =>
      rw [hresponses] at hmem
      cases hmem
  | some responses =>
      rw [hresponses] at hmem
      exact (h.operation hoperation).responses responses hresponses _ hmem

/-- Every schema in use has distinct names. -/
theorem uses {schema : Schema} (huses : document.Uses schema) : Schema.Distinct schema := by
  cases huses with
  | component hmem => exact h.components.schemas _ hmem
  | parameter hentry hitem hschema =>
      exact h.fetch ensures_parameter (h.parameter hentry) hitem schema hschema
  | body hentry hitem hcontent hschema =>
      obtain ⟨operation, hoperation, hbody⟩ := hentry
      exact h.fetch ensures_requestBody ((h.operation hoperation).requestBody _ hbody) hitem _
        hcontent schema hschema
  | response hentry hitem hcontent hschema =>
      exact h.fetch ensures_response (h.response hentry) hitem _ hcontent schema hschema

theorem proper {schema : Schema} (huses : document.Uses schema) :
    Schema.Proper document.Names schema :=
  ⟨h.uses huses, fun _ hpointer => ⟨schema, huses, hpointer⟩⟩

/-- **The items of a document reach proper schemas only.** -/
theorem properItem {item : PathItem} (hitem : document.HasItem item) :
    item.Proper document document.Names := by
  refine ⟨fun entry hentry parameter hparameter schema hschema => ?parameters,
    fun method operation hslot => ?slots⟩
  case parameters =>
    exact h.proper (.parameter (.inl ⟨item, hitem, hentry⟩) hparameter hschema)
  case slots =>
    have hoperation : document.HasOperation operation := ⟨item, method, hitem, hslot⟩
    refine ⟨fun entry hentry parameter hparameter schema hschema => ?_,
      fun entry hentry body hbody content hcontent schema hschema => ?_,
      fun entry hentry response hresponse content hcontent schema hschema => ?_⟩
    · exact h.proper (.parameter (.inr ⟨operation, hoperation, hentry⟩) hparameter hschema)
    · exact h.proper (.body ⟨operation, hoperation, hentry⟩ hbody hcontent hschema)
    · exact h.proper (.response ⟨operation, entry.1, hoperation, hentry⟩ hresponse hcontent hschema)

end Document.Distinct
end OpenApi
end ApiTypings
