/-
The generated file: a header, imports, global functions and exported types.
-/
import ApiTypings.Declaration
import ApiTypings.OpenApi.Basic
import ApiTypings.Text.Blank
import ApiTypings.Timestamp
import ApiTypings.TypeExpr.Printer

namespace ApiTypings

/-- Types imported from a module. -/
structure Import where
  names : List String
  module : String

/-- A generated file. Its global scope contributes functions, its module scope types. -/
structure SourceFile where
  header : String := ""
  imports : List Import := []
  globalScope : Scope := {}
  moduleScope : Scope := {}

/-! ### Comments -/

/-- Text inside a comment: the end of a comment is broken up. -/
def escapeComment (text : String) : String :=
  String.ofList (Text.replacePair '*' '/' ['*', '\\', '/'] text.toList)

/-- One line inside a comment. -/
def commentLine (line : String) : String :=
  if Text.trim line = "" then " *" else " * " ++ escapeComment (Text.trimEnd line)

/-- Lines with their ends. -/
def unlines (lines : List String) : String := String.join (lines.map (· ++ "\n"))

namespace DocTag

def lines (tag : DocTag) : List String :=
  match tag.text with
  | none => [" * @" ++ tag.name]
  | some text =>
    let (first, rest) := match Text.lines text with
      | [] => ("", [])
      | first :: rest => (first, rest)
    (" * @" ++ tag.name ++ " " ++ escapeComment first) :: rest.map commentLine

end DocTag

namespace Docs

/-- The lines of a documentation comment. -/
def lines (docs : Docs) : List String :=
  ["/**"]
    ++ (match docs.description with
      | none => []
      | some description =>
        (Text.lines description).map commentLine ++ (if docs.tags.isEmpty then [] else [" *"]))
    ++ docs.tags.flatMap DocTag.lines
    ++ [" */"]

end Docs

/-! ### Declarations -/

/-- The documentation of a declaration, with `indent` before each line. -/
def renderDocs (indent : String) (docs : Option Docs) : String :=
  match docs with
  | none => ""
  | some docs => unlines (docs.lines.map (indent ++ ·))

namespace TypeParameter

def render (parameter : TypeParameter) : String :=
  parameter.name
    ++ (match parameter.constraint with
      | some type => " extends " ++ type.render
      | none => "")
    ++ (match parameter.default with
      | some type => " = " ++ type.render
      | none => "")

end TypeParameter

namespace Argument

def render (argument : Argument) : String :=
  argument.name ++ (if argument.isOptional then "?" else "") ++ ": " ++ argument.type.render

end Argument

namespace Signature

def render (indent : String) (signature : Signature) : String :=
  renderDocs indent signature.docs ++ indent ++ "function " ++ signature.name
    ++ (if signature.typeParameters.isEmpty then ""
      else "<" ++ ", ".intercalate (signature.typeParameters.map TypeParameter.render) ++ ">")
    ++ "(" ++ ", ".intercalate (signature.arguments.map Argument.render) ++ "): "
    ++ signature.returns.render ++ ";\n"

end Signature

namespace Alias

def render (declared : Alias) : String :=
  renderDocs "" declared.docs ++ "export type " ++ declared.name ++ " = " ++ declared.type.render
    ++ ";\n"

end Alias

namespace Import

def render (declaration : Import) : String :=
  "import type \x7b " ++ ", ".intercalate declaration.names ++ " \x7d from "
    ++ Json.quote declaration.module ++ ";\n"

end Import

/-! ### The file -/

namespace SourceFile

/-- The text of a file. -/
def render (file : SourceFile) : String :=
  file.header
    ++ String.join (file.imports.map Import.render)
    ++ (if file.imports.isEmpty then "" else "\n")
    ++ (if file.globalScope.functions.isEmpty then ""
      else "declare global \x7b\n"
        ++ "\n".intercalate (file.globalScope.functions.map (Signature.render "  "))
        ++ "\x7d\n")
    ++ String.join (file.moduleScope.aliases.map fun declared => "\n" ++ declared.render)

end SourceFile

/-! ### The header -/

namespace Header

/-- A tag with the trimmed text, if there is text. -/
def tagLine (tag : String) (text : Option String) : List String :=
  match text.bind Text.nonBlank? with
  | some text => [" * @" ++ tag ++ " " ++ escapeComment text]
  | none => []

/-- The name of a contact, followed by its address. -/
def authorLine (contact : OpenApi.Contact) : List String :=
  match contact.name.bind Text.nonBlank? with
  | none => []
  | some name =>
    [" * @author " ++ escapeComment name
      ++ (match contact.email.bind Text.nonBlank? with
        | some email => " <" ++ escapeComment email ++ ">"
        | none => "")]

/-- The comment that tells what was generated from what, and when. -/
def render (info : OpenApi.Info) (generatedAt : Timestamp) : String :=
  unlines (
    ["// This file was automatically generated by fetchtype at " ++ generatedAt.render,
      "",
      "/**",
      " * # " ++ escapeComment (Text.trim info.title)]
    ++ (match info.description.bind Text.nonBlank? with
      | some description => " *" :: (Text.lines description).map commentLine
      | none => [])
    ++ tagLine "summary" info.summary
    ++ [" *", " * @version " ++ escapeComment (Text.trim info.version)]
    ++ tagLine "license" (info.license.bind (·.name))
    ++ (match info.contact with
      | some contact => authorLine contact
      | none => [])
    ++ [" * @module", " */", ""])

end Header
end ApiTypings
