/-
YAML values as JSON values.

Tags are dropped.  A mapping becomes an object whose keys are the texts of its keys;
where two keys have the same text, the later value replaces the earlier one in its place.
A collection or a tagged value as a key has no text.  Infinities and what is not a number
become null.
-/
import ApiTypings.Yaml.Value

namespace ApiTypings.Yaml

/-- The JSON value of a number. -/
def Number.toJson : Number → Json
  | integer value => .number (.integer value)
  | decimal value => .number (.decimal value)
  | infinity _ | notANumber => .null

namespace Value

/-- The text of a value that is a key. -/
def keyText? : Value → Option String
  | string text => some text
  | number value => some value.render
  | boolean value => some (if value then "true" else "false")
  | null => some "null"
  | sequence _ | mapping _ | tagged .. => none

mutual
/-- The JSON value, if every key has a text. -/
def toJson? : Value → Option Json
  | null => some .null
  | boolean value => some (.boolean value)
  | number value => some value.toJson
  | string text => some (.string text)
  | sequence items => (itemsToJson? items).map .array
  | mapping entries => (fieldsToJson? [] entries).map .object
  | tagged _ value => toJson? value

def itemsToJson? : List Value → Option (List Json)
  | [] => some []
  | item :: rest => do
    let item ← toJson? item
    return item :: (← itemsToJson? rest)

/-- Adds the fields of entries to the fields before them. -/
def fieldsToJson? (fields : List (String × Json)) :
    List (Value × Value) → Option (List (String × Json))
  | [] => some fields
  | (key, value) :: rest => do
    let text ← keyText? key
    let value ← toJson? value
    fieldsToJson? (Json.insertField text value fields) rest
end

end Value
end ApiTypings.Yaml
