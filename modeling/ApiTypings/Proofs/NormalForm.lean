/-
Generated types are in normal form.

Unions and intersections are flattened one level deep when they are built, texts are joined
in one place only, and objects are put together from lists that come from everywhere.  The
normal form holds all the same, at every depth: what goes into a union is itself in normal
form, so one level is all there is, and every list of members has distinct names.
-/
import Mathlib
import ApiTypings.Proofs.EmittedTypes
import ApiTypings.Proofs.FlatTypes

namespace ApiTypings

open OpenApi

namespace TypeExpr

/-- What a type in normal form looks like, itself and not inside. -/
def Normal : TypeExpr → Prop
  | union members => 2 ≤ members.length ∧ ∀ member ∈ members, ∀ inner, member ≠ union inner
  | intersection members =>
    2 ≤ members.length ∧ ∀ member ∈ members, ∀ inner, member ≠ intersection inner
  | object members => members ≠ [] ∧ (members.map Member.name).Nodup
  | template parts => TemplatePart.SeparateTexts parts
  | _ => True

/-- A type in normal form is flat, so taking it apart leaves nothing of its own kind. -/
theorem Normal.flat {type : TypeExpr} (h : Normal type) : Flat type := by
  cases type with
  | union members => exact h
  | intersection members => exact h
  | _ => trivial

theorem each_built_normal {P : String → Prop} : EachBuilt P Normal where
  keyword _ := trivial
  literal _ := trivial
  helper _ _ _ := trivial
  reference _ _ := trivial
  template _ hparts := hparts
  array _ := trivial
  object _ hne hnames := ⟨hne, hnames⟩
  combined combination types htypes hlength := by
    have hparts : ∀ part ∈ types.flatMap combination.operands, ∀ inner,
        part ≠ combination.holding inner := by
      intro part hpart
      obtain ⟨type, htype, hpart⟩ := List.mem_flatMap.mp hpart
      exact combination.ne_holding_of_mem_operands (htypes type htype).flat hpart
    cases combination <;> exact ⟨hlength, hparts⟩

/-- **What is built is in normal form at every depth.** -/
theorem Built.normal {P : String → Prop} {type : TypeExpr} (h : Built P type) :
    Everywhere Normal type :=
  h.everywhere each_built_normal

end TypeExpr

namespace Generated

/-- **Every type of a generated file is in normal form at every depth.** -/
theorem normal_of_mem_types {tree : Json} {document : Document} (htree : tree.Distinct)
    (hdocument : Document.ofJson tree = .ok document) {settings : Settings} {importRoot : String}
    {generatedAt : Timestamp} {generated : Generated}
    (h : ofDocument document settings importRoot generatedAt = .ok generated) :
    ∀ type ∈ generated.file.types, type.Everywhere TypeExpr.Normal :=
  fun type htype => (built_of_mem_types htree hdocument h type htype).normal

/-- A document with one operation and one component, whose name is a union inside a union. -/
theorem normal_of_mem_types_pets :
    let tree : Json := .object [
      ("paths", .object [("/pets", .object [("get", .object [])])]),
      ("components", .object [("schemas", .object [("pet", .object [
        ("type", .string "object"),
        ("properties", .object [("name", .object [("oneOf", .array [
          .object [("type", .string "string"), ("nullable", .boolean true)],
          .object [("type", .string "number")]])])])])])])]
    ∃ document generated, (tree.Distinct ∧ Document.ofJson tree = .ok document
        ∧ ofDocument document .relative "fetchtype" ⟨0, 0⟩ = .ok generated)
      ∧ (∀ type ∈ generated.file.types, type.Everywhere TypeExpr.Normal)
      ∧ generated.file.types = [
        .template [.text "/pets"],
        .intersection [
          .named "Omit" [.name "RequestInit", .union [.text "method", .text "body"]],
          .object [{ name := "method", type := .text "GET", isOptional := true }]],
        .named "Promise" [.name "Response"],
        .object [{
          name := "name"
          type := .union [.string, .null, .named "NonNullable" [.number]]
          isOptional := true }]] := by
  intro tree
  have htree : tree.Distinct := by simp [tree, Json.Distinct]
  refine ⟨_, _, ⟨htree, rfl, rfl⟩, ?normal, rfl⟩
  exact @normal_of_mem_types tree _ htree rfl .relative "fetchtype" ⟨0, 0⟩ _ rfl

end Generated
end ApiTypings
