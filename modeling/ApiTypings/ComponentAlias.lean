/-
One exported alias for each component schema, in the order of their declaration.

A schema without a type of its own is `unknown`, so every component has an alias.
-/
import ApiTypings.Declaration
import ApiTypings.OpenApi.Basic
import ApiTypings.TypeExpr.OfSchema

namespace ApiTypings.ComponentAlias

open OpenApi

/-- Whether a value is worth an example: not null, and not empty. -/
def isWorthShowing : Json → Bool
  | .null => false
  | .string text => text ≠ ""
  | .array items => !items.isEmpty
  | .object fields => !fields.isEmpty
  | .boolean _ => true
  | .number _ => true

/-- The title as a heading, and the description below it. -/
def descriptionOf (title description : Option String) : Option String :=
  match title, description with
  | some title, some description => some ("# " ++ title ++ "\n" ++ description)
  | some title, none => some ("# " ++ title)
  | none, description => description

/-- The examples of a schema: the single one, if it is worth showing, and the listed ones. -/
def examplesOf (schema : SchemaObject) : List Json :=
  schema.example.toList.filter isWorthShowing
    ++ match schema.examples with
      | some (.array examples) => examples
      | _ => []

/-- The documentation of a schema. -/
def docsOf (schema : SchemaObject) : Option Docs :=
  Docs.nonEmpty? {
    description := descriptionOf (schema.title.bind Text.nonBlank?)
      (schema.description.bind Text.nonBlank?)
    tags := (if schema.deprecated then [⟨"deprecated", none⟩] else [])
      ++ (examplesOf schema).map (fun value => ⟨"example", some value.pretty⟩)
      ++ schema.default.toList.map fun value => ⟨"default", some value.pretty⟩ }

/-- The alias of a component. -/
def ofSchema (name : String) (schema : Schema) : Inspect Alias := do
  let type ← TypeExpr.ofSchema false schema
  return {
    docs := schema.inline?.bind docsOf
    name := Text.pascalCase name
    type := type.getD .unknown }

/-- Where a component stands in the document. -/
def location (name : String) : String := "#/components/schemas/" ++ name

/-- The aliases of components, and the warnings. -/
def ofSchemas : List (String × Schema) → List Alias × List Warning
  | [] => ([], [])
  | (name, schema) :: schemas =>
    let (declared, warnings) := Inspect.runAt (location name) (ofSchema name schema)
    let (aliases, restWarnings) := ofSchemas schemas
    (declared :: aliases, warnings ++ restWarnings)

end ApiTypings.ComponentAlias
