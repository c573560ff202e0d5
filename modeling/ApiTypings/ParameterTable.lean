/-
The parameters of an operation, by name.

A later parameter replaces an earlier one of the same name and keeps its place.
-/
import ApiTypings.OpenApi.Document

namespace ApiTypings

open OpenApi

/-- Parameters under their names, in the order in which the names came. -/
abbrev ParameterTable := List (String × Parameter)

namespace ParameterTable

/-- The table with a parameter put under its name. -/
def insert (table : ParameterTable) (parameter : Parameter) : ParameterTable :=
  Json.insertField parameter.name parameter table

/-- Adds parameters in their order. The first that cannot be fetched ends this; the table then
holds the ones before it. -/
def add (document : Document) : ParameterTable → List (Referable Parameter) →
    ParameterTable × Option Failure
  | table, [] => (table, none)
  | table, entry :: entries =>
    match document.fetch OpenApi.parameter.decode entry with
    | .ok parameter => add document (table.insert parameter) entries
    | .error failure => (table, some failure)

/-- The table after all parameters, if each can be fetched. -/
def add? (document : Document) (table : ParameterTable) (entries : List (Referable Parameter)) :
    Except Failure ParameterTable :=
  match add document table entries with
  | (table, none) => .ok table
  | (_, some failure) => .error failure

/-- The parameters of a path overlaid by those of an operation. -/
def merge? (document : Document) (shared own : List (Referable Parameter)) :
    Except Failure ParameterTable := do
  let table ← add? document [] shared
  add? document table own

/-- The parameters that travel in a location, in the order of the table. -/
def inLocation (table : ParameterTable) (location : Location) : List Parameter :=
  (table.map Prod.snd).filter fun parameter => parameter.location = location

end ParameterTable
end ApiTypings
