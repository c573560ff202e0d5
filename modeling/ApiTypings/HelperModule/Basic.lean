/-
The modules that generated files import their helper types from.

They can be written out beside the generated file, so that its imports resolve.
-/
import ApiTypings.HelperModule.Brand
import ApiTypings.HelperModule.JsonText
import ApiTypings.HelperModule.Keys
import ApiTypings.HelperModule.TemplatedQuery
import ApiTypings.HelperModule.TypedHeaders
import ApiTypings.HelperModule.TypedQuery
import ApiTypings.Text.Blank

namespace ApiTypings

/-- A module of helper types: the stem of its file, and its lines. -/
structure HelperModule where
  name : String
  lines : List String

namespace HelperModule

/-- All modules, in the order in which they are written. -/
def all : List HelperModule := [
  ⟨"brand", brandLines⟩,
  ⟨"utils", keysLines⟩,
  ⟨"json", jsonTextLines⟩,
  ⟨"headers", typedHeadersLines⟩,
  ⟨"url_search_params", typedQueryLines⟩,
  ⟨"urlsearchparams", templatedQueryLines⟩]

def find? (name : String) : Option HelperModule := all.find? fun module => module.name == name

/-- The text of a module. -/
def source (module : HelperModule) : String := String.join (module.lines.map (· ++ "\n"))

/-- Whether one text occurs in another. -/
def occursIn (part : List Char) : List Char → Bool
  | [] => part.isEmpty
  | c :: rest => part.isPrefixOf (c :: rest) || occursIn part rest

/-- Whether a module declares the exported type `name`, with type parameters or without. -/
def exports (module : HelperModule) (name : String) : Bool :=
  let source := module.source.toList
  occursIn ("export type " ++ name ++ "<").toList source
    || occursIn ("export type " ++ name ++ " ").toList source

/-- Whether a root is a URL and not a directory. -/
def isUrl (root : String) : Bool :=
  ["http://", "https://", "file://"].any fun scheme => scheme.toList.isPrefixOf root.toList

/-- What a generated file imports a module by: a path without its suffix, or a URL with it. -/
def importPath (root name : String) : String :=
  let root := String.ofList (Text.dropEndWhile (· = '/') root.toList)
  root ++ "/types/" ++ name ++ (if isUrl root then ".ts" else "")

end HelperModule
end ApiTypings
