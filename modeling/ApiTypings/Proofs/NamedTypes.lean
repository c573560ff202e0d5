/-
The names in a generated file.

A type is named by the generator itself, which knows a few helper types, or by a reference in
a schema.  A reference to a component bears the name of the alias that the component has in the
file.  Any other reference in a schema is named just the same, by its last segment, whether
it leads anywhere or not: no generation fails by what a schema refers to.
-/
import Mathlib
import ApiTypings.Proofs.ComponentReferences
import ApiTypings.Proofs.EmittedTypes
import ApiTypings.Proofs.FailureCauses

namespace ApiTypings

open OpenApi

namespace TypeExpr

/-- A name is one of the generator, or that of one of the references. -/
def NamedBy (P : String → Prop) : TypeExpr → Prop
  | named name _ => name ∈ helperNames ∨ ∃ pointer, P pointer ∧ name = referenceName pointer
  | _ => True

theorem each_built_namedBy {P : String → Prop} : EachBuilt P (NamedBy P) where
  keyword _ := trivial
  literal _ := trivial
  helper _ hname _ := .inl hname
  reference pointer hpointer := .inr ⟨pointer, hpointer, rfl⟩
  template _ _ := trivial
  array _ := trivial
  object _ _ _ := trivial
  combined combination _ _ _ := by cases combination <;> trivial

/-- **What is built has no other names at any depth.** -/
theorem Built.namedBy {P : String → Prop} {type : TypeExpr} (h : Built P type) :
    Everywhere (NamedBy P) type :=
  h.everywhere each_built_namedBy

end TypeExpr

/-- The names that a file declares. -/
def SourceFile.declaredNames (file : SourceFile) : List String :=
  (file.globalScope.aliases ++ file.moduleScope.aliases).map Alias.name

/-- The reference is that to a component, at its key. -/
def OpenApi.Document.HasComponent (document : Document) (pointer : String) : Prop :=
  ∃ entry ∈ document.description.components.schemas, pointer = Json.schemaReference entry.1

namespace Generated

variable {document : Document} {settings : Settings} {importRoot : String}
  {generatedAt : Timestamp} {generated : Generated}

/-- A file declares one name for each component. -/
theorem declaredNames_eq
    (h : ofDocument document settings importRoot generatedAt = .ok generated) :
    generated.file.declaredNames
      = document.description.components.schemas.map fun entry => Text.pascalCase entry.1 := by
  unfold ofDocument at h
  split at h
  · cases h
  · rename_i scope warnings hpaths
    cases h
    obtain ⟨hresults⟩ := Overload.addPaths_eq_iff.mp hpaths
    show (ComponentAlias.ofSchemas _).1.map Alias.name = _
    rw [ComponentAlias.ofSchemas_eq_map, List.map_map]
    rfl

/-- The name of a component is declared. -/
theorem referenceName_mem_declaredNames
    (h : ofDocument document settings importRoot generatedAt = .ok generated) {pointer : String}
    (hpointer : document.HasComponent pointer) :
    referenceName pointer ∈ generated.file.declaredNames := by
  obtain ⟨entry, hentry, rfl⟩ := hpointer
  rw [declaredNames_eq h, referenceName_schemaReference]
  exact List.mem_map.mpr ⟨entry, hentry, rfl⟩

/-- **Names are declared, except those of references that lead to no component.**  At any depth of
the types of a generated file, a name is one of the generator, or it is declared in the file, or
it is that of a reference which stands in a schema of the document and leads to no component.
Such a reference does not make the generation fail: it fails by its paths, exactly if there is a
failure among what is followed and read for them. -/
theorem named_or_dangling {tree : Json} (htree : tree.Distinct)
    (hdocument : Document.ofJson tree = .ok document) (settings : Settings) (importRoot : String)
    (generatedAt : Timestamp) :
    (∀ generated, ofDocument document settings importRoot generatedAt = .ok generated →
        ∀ type ∈ generated.file.types, ∀ name args, TypeExpr.Occurs (.named name args) type →
          name ∈ TypeExpr.helperNames ∨ name ∈ generated.file.declaredNames
            ∨ ∃ pointer, document.Names pointer ∧ ¬document.HasComponent pointer
              ∧ name = referenceName pointer)
      ∧ FailsBy (document.Fails settings)
        (ofDocument document settings importRoot generatedAt) := by
  refine ⟨fun generated h type htype name args hoccurs => ?_, failsBy_ofDocument _ _ _ _⟩
  have hnamed : name ∈ TypeExpr.helperNames
      ∨ ∃ pointer, document.Names pointer ∧ name = referenceName pointer :=
    (built_of_mem_types htree hdocument h type htype).namedBy _ hoccurs
  obtain hhelper | ⟨pointer, hpointer, rfl⟩ := hnamed
  · exact .inl hhelper
  · by_cases hcomponent : document.HasComponent pointer
    · exact .inr (.inl (referenceName_mem_declaredNames h hcomponent))
    · exact .inr (.inr ⟨pointer, hpointer, hcomponent, rfl⟩)

/-- A component that is used, and a reference that leads nowhere. -/
theorem named_or_dangling_pets :
    let tree : Json := .object [
      ("paths", .object [("/pets", .object [("get", .object [("responses", .object [
        ("200", .object [("content", .object [("application/json", .object [
          ("schema", .object [("$ref", .string "#/components/schemas/pet")])])])])])])])]),
      ("components", .object [("schemas", .object [("pet", .object [
        ("type", .string "array"),
        ("items", .object [("$ref", .string "#/components/schemas/missing")])])])])]
    ∃ document, (tree.Distinct ∧ Document.ofJson tree = .ok document)
      ∧ (∃ generated, ofDocument document .relative "fetchtype" ⟨0, 0⟩ = .ok generated
        ∧ generated.file.declaredNames = ["Pet"]
        ∧ generated.file.types.map TypeExpr.render = [
          "\x60/pets\x60",
          "Omit<RequestInit, \"method\" | \"body\"> & \x7b method?: \"GET\" \x7d",
          "Promise<Omit<Response, \"ok\" | \"status\" | \"arrayBuffer\" | \"blob\" | \"formData\""
            ++ " | \"json\" | \"text\"> & \x7b ok: true; status: 200; json(): Promise<Pet>;"
            ++ " text(): Promise<JSONString<Pet>> \x7d>",
          "Missing[]"])
      ∧ (∀ generated, ofDocument document .relative "fetchtype" ⟨0, 0⟩ = .ok generated →
        ∀ type ∈ generated.file.types, ∀ name args, TypeExpr.Occurs (.named name args) type →
          name ∈ TypeExpr.helperNames ∨ name ∈ generated.file.declaredNames
            ∨ ∃ pointer, document.Names pointer ∧ ¬document.HasComponent pointer
              ∧ name = referenceName pointer)
      ∧ FailsBy (document.Fails .relative) (ofDocument document .relative "fetchtype" ⟨0, 0⟩) := by
  intro tree
  have htree : tree.Distinct := by simp [tree, Json.Distinct]
  refine ⟨_, ⟨htree, rfl⟩, ⟨_, rfl, by decide +kernel, by decide +kernel⟩, ?_⟩
  exact named_or_dangling htree rfl .relative "fetchtype" ⟨0, 0⟩

/-- A file with an alias of a name that nothing declares. -/
theorem undeclared_missing :
    let tree : Json := .object [("components", .object [("schemas", .object [
      ("pet", .object [("$ref", .string "#/components/schemas/missing")])])])]
    ∃ document generated, (tree.Distinct ∧ Document.ofJson tree = .ok document
        ∧ ofDocument document .relative "fetchtype" ⟨0, 0⟩ = .ok generated)
      ∧ ∃ type ∈ generated.file.types, TypeExpr.Occurs (.named "Missing" []) type
        ∧ "Missing" ∉ TypeExpr.helperNames ∧ "Missing" ∉ generated.file.declaredNames := by
  intro tree
  have htree : tree.Distinct := by simp [tree, Json.Distinct]
  obtain ⟨document, generated, hdocument, h, htypes, hdeclared⟩ : ∃ document generated,
      Document.ofJson tree = .ok document
        ∧ ofDocument document .relative "fetchtype" ⟨0, 0⟩ = .ok generated
        ∧ generated.file.types = [.name (referenceName "#/components/schemas/missing")]
        ∧ generated.file.declaredNames = [Text.pascalCase "pet"] :=
    ⟨_, _, rfl, rfl, rfl, rfl⟩
  have hmissing : referenceName "#/components/schemas/missing" = "Missing" := by
    decide +kernel
  have hpet : Text.pascalCase "pet" = "Pet" := by decide +kernel
  rw [hmissing] at htypes
  rw [hpet] at hdeclared
  refine ⟨document, generated, ⟨htree, hdocument, h⟩, .name "Missing", ?_, .self, by decide, ?_⟩
  · rw [htypes]
    exact List.mem_singleton_self _
  · rw [hdeclared]
    decide

end Generated
end ApiTypings
