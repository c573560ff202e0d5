/-
The decoders of documents and their parts.

Schemas nest, so their decoder is built up level by level: the decoder of one level reads
the schemas inside a schema with the decoder of the level below.  A value of depth `n`
holds no schema that is nested more than `n` deep, so `n` levels read it in full.
-/
import ApiTypings.OpenApi.Basic
import ApiTypings.OpenApi.Decoder

namespace ApiTypings.OpenApi

open Decoder

/-- The text of a scalar that is written without quotes where a text is meant. -/
def scalarText? : Json → Option String
  | .string text => some text
  | .number value => some value.render
  | .boolean value => some (if value then "true" else "false")
  | _ => none

/-- A text, or a scalar taken as its text; anything else is taken as the empty text. -/
def scalarText : Decoder String := fun value => .ok ((scalarText? value).getD "")

/-- The texts of the scalars of a list, without the items that are not scalars. -/
def scalarTexts : Decoder (List String) := fun value =>
  match list raw value with
  | .ok values => .ok (values.filterMap scalarText?)
  | .error fault => .error fault

def typeName : Decoder TypeName
  | .string name => .ok (.single name)
  | value =>
    match list text value with
    | .ok names => .ok (.several names)
    | .error _ => fail (.noVariant "SchemaType")

def additionalProperties (schema : Decoder Schema) : Decoder (AdditionalProperties Schema)
  | .boolean allowed => .ok (.flag allowed)
  | value =>
    match schema value with
    | .ok result => .ok (.schema result)
    | .error _ => fail (.noVariant "AdditionalProperties")

/-- Schema objects, given the decoder of the schemas inside. -/
def schemaObject (schema : Decoder Schema) : Record SchemaObject where
  name := "SchemaObject"
  empty := {}
  fields := [
    field "title" .optional (optional text) fun v s => { s with title := v },
    field "description" .optional (optional text) fun v s => { s with description := v },
    field "type" .optional (optional typeName) fun v s => { s with type := v },
    field "nullable" .optional (optional flag) fun v s => { s with nullable := v },
    field "not" .optional (optional schema) fun v s => { s with not := v },
    field "additionalProperties" .optional (optional (additionalProperties schema))
      fun v s => { s with additionalProperties := v },
    field "allOf" .optional (optional (list schema)) fun v s => { s with allOf := v },
    field "oneOf" .optional (optional (list schema)) fun v s => { s with oneOf := v },
    field "anyOf" .optional (optional (list schema)) fun v s => { s with anyOf := v },
    field "enum" .optional (optional (list raw)) fun v s => { s with enum := v },
    field "properties" .optional (optional (entries schema)) fun v s => { s with properties := v },
    field "required" .defaulted (list text) fun v s => { s with required := v },
    field "items" .optional (optional schema) fun v s => { s with items := v },
    field "deprecated" .defaulted flag fun v s => { s with deprecated := v },
    field "example" .defaulted raw fun v s => { s with «example» := some v },
    field "examples" .optional (optional raw) fun v s => { s with examples := v },
    field "default" .defaulted raw fun v s => { s with default := some v }]

/-- Schemas that are nested at most `levels` deep. -/
def schemaWithin : Nat → Decoder Schema
  | 0 => fun _ => fail (.noVariant "ReferenceOr")
  | levels + 1 => referable (schemaObject (schemaWithin levels)).decode

def schema : Decoder Schema := fun value => schemaWithin value.depth value

def license : Record License where
  name := "License"
  empty := {}
  fields := [field "name" .optional (optional text) fun v l => { l with name := v }]

def contact : Record Contact where
  name := "Contact"
  empty := {}
  fields := [
    field "name" .optional (optional text) fun v c => { c with name := v },
    field "email" .optional (optional text) fun v c => { c with email := v }]

def info : Record Info where
  name := "Info"
  empty := {}
  fields := [
    field "title" .defaulted scalarText fun v i => { i with title := v },
    field "description" .optional (optional text) fun v i => { i with description := v },
    field "summary" .optional (optional text) fun v i => { i with summary := v },
    field "version" .defaulted scalarText fun v i => { i with version := v },
    field "license" .optional (optional license.decode) fun v i => { i with license := v },
    field "contact" .optional (optional contact.decode) fun v i => { i with contact := v }]

def serverVariable : Record ServerVariable where
  name := "ServerVariable"
  empty := {}
  fields := [
    field "enum" .defaulted (optional scalarTexts) fun v s => { s with enum := v },
    field "default" .defaulted scalarText fun v s => { s with default := v }]

def server : Record Server where
  name := "Server"
  empty := {}
  fields := [
    field "url" .required text fun v s => { s with url := v },
    field "variables" .defaulted (entries serverVariable.decode)
      fun v s => { s with placeholders := v }]

def locations : List (String × Location) :=
  [("query", .query), ("header", .header), ("path", .path), ("cookie", .cookie)]

/-- The location of a name. -/
def locationNamed (name : String) : Except Fault Location :=
  match Json.lookup name locations with
  | some location => .ok location
  | none => fail (.unknownVariant name (locations.map Prod.fst))

/-- A name, or an object that has the name as its only key and a null under it. -/
def location : Decoder Location
  | .string name => locationNamed name
  | .object [(name, value)] => do
    let location ← locationNamed name
    match value with
    | .null => .ok location
    | found => within (.key name) (fail (.wrongType found "unit"))
  | .object _ => fail .notSingleKey
  | found => fail (.wrongType found "string or map")

def parameter : Record Parameter where
  name := "Parameter"
  empty := {}
  fields := [
    field "name" .required text fun v p => { p with name := v },
    field "in" .required location fun v p => { p with location := v },
    field "required" .defaulted flag fun v p => { p with required := v },
    field "allowEmptyValue" .defaulted flag fun v p => { p with allowEmptyValue := v },
    field "schema" .optional (optional schema) fun v p => { p with schema := v }]

def mediaType : Record MediaType where
  name := "MediaType"
  empty := {}
  fields := [field "schema" .optional (optional schema) fun v m => { m with schema := v }]

def requestBody : Record RequestBody where
  name := "RequestBody"
  empty := {}
  fields := [
    field "content" .defaulted (entries mediaType.decode) fun v b => { b with content := v },
    field "required" .defaulted flag fun v b => { b with required := v }]

def response : Record Response where
  name := "Response"
  empty := {}
  fields := [
    field "content" .defaulted (entries mediaType.decode) fun v r => { r with content := v }]

def parameters : Decoder (List (Referable Parameter)) := list (referable parameter.decode)

def operation : Record Operation where
  name := "Operation"
  empty := {}
  fields := [
    field "summary" .optional (optional text) fun v o => { o with summary := v },
    field "description" .optional (optional text) fun v o => { o with description := v },
    field "deprecated" .defaulted flag fun v o => { o with deprecated := v },
    field "parameters" .defaulted parameters fun v o => { o with parameters := v },
    field "requestBody" .optional (optional (referable requestBody.decode))
      fun v o => { o with requestBody := v },
    field "responses" .optional (optional (entries (referable response.decode)))
      fun v o => { o with responses := v }]

/-- A null under a method is kept apart from an absent method. -/
def slot : Decoder Slot := fun value =>
  match optional operation.decode value with
  | .ok (some operation) => .ok (.operation operation)
  | .ok none => .ok .null
  | .error fault => .error fault

def pathItem : Record PathItem where
  name := "PathItem"
  empty := {}
  fields :=
    [field "$ref" .optional (optional text) fun v p => { p with reference := v },
      field "parameters" .optional (optional parameters) fun v p => { p with parameters := v }]
    ++ Method.all.map fun method =>
      field method.lowerName .defaulted slot fun v p => p.withSlot method v

def components : Record Components where
  name := "Components"
  empty := {}
  fields := [field "schemas" .defaulted (entries schema) fun v c => { c with schemas := v }]

def description : Record Description where
  name := "OpenApi"
  empty := {}
  fields := [
    field "info" .defaulted info.decode fun v d => { d with info := v },
    field "servers" .defaulted (list server.decode) fun v d => { d with servers := v },
    field "paths" .defaulted (entries pathItem.decode) fun v d => { d with paths := v },
    field "components" .defaulted components.decode fun v d => { d with components := v }]

end ApiTypings.OpenApi
