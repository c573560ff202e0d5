/-
The declarations of a generated file.

The overloads of a file come in groups, one for each operation, and what holds of every group
holds of all overloads.  What holds of the type of a schema holds of the alias of a component.
The references that are named in a file are those that stand in schemas of the document.
-/
import Mathlib
import ApiTypings.Generation
import ApiTypings.Proofs.BuiltOverloads
import ApiTypings.Proofs.PathOverloads

namespace ApiTypings

open OpenApi Inspect TypeExpr

namespace Overload

variable {P : String → Prop} {document : Document} {settings : Settings}

theorem built_of_ofOperation {pattern : String} {shared : ParameterTable}
    (hshared : shared.Proper P) {method : Method} {operation : Operation}
    (hoperation : operation.Proper document P)
    {group : List Signature × List Warning}
    (h : OfOperation document settings pattern shared method operation group) :
    ∀ signature ∈ group.1, signature.Built P := by
  have hrun := h.alone
  have hbuilds : Build.Always (fun signatures => ∀ signature ∈ signatures, signature.Built P)
      (ofOperation document settings pattern shared method operation) :=
    always_ofOperation hshared hoperation
  have hresult := Inspect.Always.runAt hbuilds (method.upperName ++ " " ++ pattern)
  unfold runAt at hrun
  split at hrun
  · rename_i value found heq
    cases hrun
    rw [heq] at hresult
    exact hresult _ rfl
  · cases hrun

theorem built_of_ofPath {entry : String × PathItem} {result : List Signature × List Warning}
    (hproper : ∀ item, effectiveItem document entry.2 = .ok item → item.Proper document P)
    (h : OfPath document settings entry result) :
    ∀ signature ∈ result.1, signature.Built P := by
  obtain ⟨item, shared, groups, hitem, hshared, -, hgroups, rfl⟩ := h
  have hitem := hproper item (effectiveItem_eq_ok.mpr hitem)
  refine List.forall_mem_flatMap.mpr fun group hgroup => ?_
  obtain ⟨⟨method, operation⟩, hmem, hoperation⟩ := exists_mem_left hgroups hgroup
  exact built_of_ofOperation (ParameterTable.proper_nil.add? hitem.parameters hshared)
    (hitem.slots method operation (PathItem.mem_operations.mp hmem)) hoperation

theorem built_addPaths (hproper : ∀ item, document.HasItem item → item.Proper document P)
    {scope result : Scope} {warnings : List Warning}
    (h : addPaths document settings document.description.paths scope = (result, .ok warnings)) :
    ∃ functions, result = scope.addFunctions functions
      ∧ ∀ signature ∈ functions, signature.Built P := by
  obtain ⟨hpaths⟩ := addPaths_eq_iff.mp h
  refine ⟨_, rfl, List.forall_mem_flatMap.mpr fun group hgroup => ?_⟩
  obtain ⟨entry, hentry, hpath⟩ := exists_mem_left hpaths hgroup
  exact built_of_ofPath (fun item hitem => hproper item ⟨entry, hentry, hitem⟩) hpath

end Overload

namespace ComponentAlias

variable {P : String → Prop}

theorem tagNames_docsOf (schema : SchemaObject) :
    ∀ docs ∈ docsOf schema, ∀ name ∈ docs.tagNames, Text.IsName name := by
  intro docs hdocs
  rw [Docs.eq_of_nonEmpty? hdocs, Docs.tagNames]
  refine List.forall_mem_map.mpr ?_
  simp only [List.forall_mem_append, List.forall_mem_map]
  refine ⟨⟨?_, fun _ _ => ?_⟩, fun _ _ => ?_⟩
  · split
    · exact List.forall_mem_singleton.mpr (isName_of_mem_fixedNames (by simp [fixedNames]))
    · exact List.forall_mem_nil _
  · exact isName_of_mem_fixedNames (by simp [fixedNames])
  · exact isName_of_mem_fixedNames (by simp [fixedNames])

theorem always_ofSchema (name : String) {schema : Schema} (h : Schema.Proper P schema) :
    Always (Alias.Built P) (ofSchema name schema) := by
  refine Always.bind (P := fun type => ∀ inner ∈ type, Built P inner)
    ((appends_ofSchema schema).always (built_of_lowered h)) fun type htype => ?_
  refine always_pure ⟨.getD htype (.keyword _), List.forall_mem_cons.mpr ⟨?_, ?_⟩⟩
  · exact Text.isName_pascalCase name
  · refine List.forall_mem_flatMap.mpr fun docs hdocs => ?_
    obtain ⟨node, hnode, hdocs⟩ := Option.bind_eq_some_iff.mp (Option.mem_toList.mp hdocs)
    exact tagNames_docsOf node docs hdocs

theorem built_ofSchemas {schemas : List (String × Schema)}
    (h : ∀ entry ∈ schemas, Schema.Proper P entry.2) :
    ∀ declared ∈ (ofSchemas schemas).1, declared.Built P := by
  induction schemas with
  | nil => exact nofun
  | cons entry schemas ih =>
      obtain ⟨name, schema⟩ := entry
      refine List.forall_mem_cons.mpr ⟨?_, ih fun e he => h e (List.mem_cons_of_mem _ he)⟩
      exact (always_ofSchema name (h (name, schema) List.mem_cons_self)).runAt (location name)

end ComponentAlias

/-- The types that the declarations of a place show. -/
def Scope.types (scope : Scope) : List TypeExpr :=
  scope.functions.flatMap Signature.types ++ scope.aliases.map Alias.type

/-- The types that a file shows. -/
def SourceFile.types (file : SourceFile) : List TypeExpr :=
  file.globalScope.types ++ file.moduleScope.types

namespace Generated

/-- **Every declaration of a generated file is built, and beside them it has its header and the
imports of the helper types.** -/
theorem built_of_ofDocument {tree : Json} {document : Document} (htree : tree.Distinct)
    (hdocument : Document.ofJson tree = .ok document) {settings : Settings} {importRoot : String}
    {generatedAt : Timestamp} {generated : Generated}
    (h : ofDocument document settings importRoot generatedAt = .ok generated) :
    ∃ functions aliases, (∀ signature ∈ functions, signature.Built document.Names)
      ∧ (∀ declared ∈ aliases, declared.Built document.Names)
      ∧ generated.file = {
          header := Header.render document.description.info generatedAt
          imports := imports importRoot settings
          globalScope := { functions }
          moduleScope := { aliases } } := by
  have hdistinct := Document.distinct_of_ofJson htree hdocument
  unfold ofDocument at h
  split at h
  · cases h
  · rename_i scope warnings hpaths
    cases h
    obtain ⟨functions, rfl, hfunctions⟩ :=
      Overload.built_addPaths (fun _ hitem => hdistinct.properItem hitem) hpaths
    exact ⟨functions, _, hfunctions,
      ComponentAlias.built_ofSchemas fun _ hentry => hdistinct.proper (.component hentry), rfl⟩

/-- **Every type of a generated file is built.** -/
theorem built_of_mem_types {tree : Json} {document : Document} (htree : tree.Distinct)
    (hdocument : Document.ofJson tree = .ok document) {settings : Settings} {importRoot : String}
    {generatedAt : Timestamp} {generated : Generated}
    (h : ofDocument document settings importRoot generatedAt = .ok generated) :
    ∀ type ∈ generated.file.types, Built document.Names type := by
  obtain ⟨functions, aliases, hfunctions, haliases, hfile⟩ :=
    built_of_ofDocument htree hdocument h
  rw [hfile]
  simp only [SourceFile.types, Scope.types, List.forall_mem_append, List.forall_mem_flatMap,
    List.forall_mem_map]
  exact ⟨⟨fun signature hsignature => (hfunctions signature hsignature).types, nofun⟩, nofun,
    fun declared hdeclared => (haliases declared hdeclared).type⟩

end Generated
end ApiTypings
