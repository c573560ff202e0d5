/-
The names that a file exports.

Every component has one alias, named by the words of its key.  Nothing sees to it that the names
differ: two keys of the same words give one name, and so does a key with the words that the
capitals of a helper type begin.  This is the whole account of what clashes, since a name shows
its words up to case.
-/
import Mathlib
import ApiTypings.Proofs.NamedTypes
import ApiTypings.Proofs.WordNames

namespace ApiTypings

open OpenApi

namespace Text

/-- A name with a space before each capital, so that a word begins there. -/
def spaced (name : String) : String :=
  String.ofList (name.toList.flatMap fun c => if isUpper c then [' ', c] else [c])

end Text

namespace TypeExpr

/-- The helper types have names made of the words that their capitals begin, an acronym being a
word for each letter. -/
theorem pascalCase_spaced {name : String} (h : name ∈ helperNames) :
    Text.pascalCase (Text.spaced name) = name := by
  revert name
  decide +kernel

end TypeExpr

/-- The keys of the components of a document. -/
def OpenApi.Document.componentKeys (document : Document) : List String :=
  document.description.components.schemas.map Prod.fst

namespace Generated

variable {document : Document} {settings : Settings} {importRoot : String}
  {generatedAt : Timestamp} {generated : Generated}

/-- **Which names clash.**  The aliases of a file are named by the keys of the components, in
their order.  The names are distinct exactly if no two keys have the same words up to case, and
one of them is that of a helper type exactly if a key has the words of this name. -/
theorem exported_names (h : ofDocument document settings importRoot generatedAt = .ok generated) :
    generated.file.declaredNames = document.componentKeys.map Text.pascalCase
      ∧ (generated.file.declaredNames.Nodup
        ↔ document.componentKeys.Pairwise fun key other => ¬Text.SameWords key other)
      ∧ ∀ helper ∈ TypeExpr.helperNames, helper ∈ generated.file.declaredNames
        ↔ ∃ key ∈ document.componentKeys, Text.SameWords key (Text.spaced helper) := by
  have hnames : generated.file.declaredNames = document.componentKeys.map Text.pascalCase := by
    rw [declaredNames_eq h, Document.componentKeys, List.map_map]
    rfl
  refine ⟨hnames, ?_, fun helper hhelper => ?_⟩
  · rw [hnames, List.Nodup, List.pairwise_map]
    simp only [ne_eq, Text.pascalCase_eq_iff]
  · have hsame : ∀ key, Text.pascalCase key = helper ↔ Text.SameWords key (Text.spaced helper) := by
      intro key
      rw [← Text.pascalCase_eq_iff, TypeExpr.pascalCase_spaced hhelper]
    rw [hnames, List.mem_map]
    simp only [hsame]

/-- Names that are distinct although their keys share letters, and an acronym spelled out. -/
theorem exported_names_spelled :
    let tree : Json := .object [("components", .object [("schemas", .object [
      ("pet_store", .object []), ("petstore", .object []), ("j-s-o-n string", .object [])])])]
    ∃ document generated, (Document.ofJson tree = .ok document
        ∧ ofDocument document .relative "fetchtype" ⟨0, 0⟩ = .ok generated)
      ∧ generated.file.declaredNames = document.componentKeys.map Text.pascalCase
      ∧ (generated.file.declaredNames.Nodup
        ↔ document.componentKeys.Pairwise fun key other => ¬Text.SameWords key other)
      ∧ (∀ helper ∈ TypeExpr.helperNames, helper ∈ generated.file.declaredNames
        ↔ ∃ key ∈ document.componentKeys, Text.SameWords key (Text.spaced helper))
      ∧ generated.file.declaredNames = ["PetStore", "Petstore", "JSONString"] := by
  intro tree
  obtain ⟨document, generated, hdocument, h, hkeys⟩ : ∃ document generated,
      Document.ofJson tree = .ok document
        ∧ ofDocument document .relative "fetchtype" ⟨0, 0⟩ = .ok generated
        ∧ document.componentKeys = ["pet_store", "petstore", "j-s-o-n string"] :=
    ⟨_, _, rfl, rfl, rfl⟩
  obtain ⟨hnames, hdistinct, hhelpers⟩ := exported_names h
  refine ⟨document, generated, ⟨hdocument, h⟩, hnames, hdistinct, hhelpers, ?_⟩
  rw [hnames, hkeys]
  decide +kernel

/-- Two keys that differ in case, and a key that is the name of a helper type in lower case. -/
theorem exported_names_clash :
    let tree : Json := .object [("components", .object [("schemas", .object [
      ("pet", .object []), ("Pet", .object []), ("response", .object [])])])]
    ∃ document generated, (tree.Distinct ∧ Document.ofJson tree = .ok document
        ∧ ofDocument document .relative "fetchtype" ⟨0, 0⟩ = .ok generated)
      ∧ document.componentKeys.Nodup ∧ ¬generated.file.declaredNames.Nodup
      ∧ "Response" ∈ TypeExpr.helperNames ∧ "Response" ∈ generated.file.declaredNames := by
  intro tree
  have htree : tree.Distinct := by simp [tree, Json.Distinct]
  obtain ⟨document, generated, hdocument, h, hkeys, hdeclared⟩ : ∃ document generated,
      Document.ofJson tree = .ok document
        ∧ ofDocument document .relative "fetchtype" ⟨0, 0⟩ = .ok generated
        ∧ document.componentKeys = ["pet", "Pet", "response"]
        ∧ generated.file.declaredNames = ["pet", "Pet", "response"].map Text.pascalCase :=
    ⟨_, _, rfl, rfl, rfl, rfl⟩
  have hnames : ["pet", "Pet", "response"].map Text.pascalCase = ["Pet", "Pet", "Response"] := by
    decide +kernel
  rw [hnames] at hdeclared
  refine ⟨document, generated, ⟨htree, hdocument, h⟩, ?_, ?_, by decide, ?_⟩
  · rw [hkeys]
    decide
  · rw [hdeclared]
    decide
  · rw [hdeclared]
    decide

end Generated
end ApiTypings
