/-
From a document to the file of its declarations.
-/
import ApiTypings.ComponentAlias
import ApiTypings.HelperModule.Basic
import ApiTypings.Overload
import ApiTypings.SourceFile

namespace ApiTypings

open OpenApi

/-- The declarations of a document, and what was worth a warning. -/
structure Generated where
  file : SourceFile
  warnings : List Warning

namespace Generated

/-- The import of a helper type. -/
def importOf (root name module : String) : Import := ⟨[name], HelperModule.importPath root module⟩

/-- The imports of a generated file. -/
def imports (root : String) (settings : Settings) : List Import := [
  importOf root "JSONString" "json",
  importOf root "TypedHeadersInit" "headers",
  importOf root "URLSearchParamsString"
    (if settings.experimentalUrlSearchParams then "urlsearchparams" else "url_search_params")]

/-- The file of a document: its overloads are global, its component types exported. -/
def ofDocument (document : Document) (settings : Settings) (importRoot : String)
    (generatedAt : Timestamp) : Except Failure Generated :=
  match Overload.addPaths document settings document.description.paths {} with
  | (_, .error failure) => .error failure
  | (globalScope, .ok warnings) =>
    let (aliases, aliasWarnings) :=
      ComponentAlias.ofSchemas document.description.components.schemas
    .ok {
      file := {
        header := Header.render document.description.info generatedAt
        imports := imports importRoot settings
        globalScope
        moduleScope := Scope.addAliases {} aliases }
      warnings := warnings ++ aliasWarnings }

end Generated
end ApiTypings
