/-
The type of a schema.

A node may carry several keywords at once.  They are read in a fixed order, from the
inside out: the first of `allOf`, `oneOf`, `anyOf`, `enum` and `type` that is there gives
the base, `additionalProperties` intersects it with a dictionary, `not` excludes from it, and
`nullable` adds null.  A node without a base has no type of its own, and the place where it
stands chooses an open one.

Where values travel as text, in query strings and in form bodies, scalars are typed by the
strings that they are written as.
-/
import ApiTypings.OpenApi.Schema
import ApiTypings.Text.Word
import ApiTypings.TypeExpr.Printer
import ApiTypings.Json.Pointer
import ApiTypings.Warning

namespace ApiTypings

open OpenApi

/-- What follows the last slash. -/
def lastSegment (reference : String) : List Char :=
  ((Text.splitOnChar '/' reference.toList).getLast?).getD []

/-- The name of the type that a reference stands for, made from its last segment. -/
def referenceName (reference : String) : String :=
  Text.pascalCase (String.ofList (Json.unescapeSegment (lastSegment reference)))

namespace OpenApi

/-- A schema of type `object` and no other type. -/
def isObjectSchema (schema : Schema) : Bool :=
  match schema.inline? with
  | some object => object.type = some (.single "object")
  | none => false

/-- The names of the types that schemas know. -/
def typeNames : List String :=
  ["boolean", "string", "number", "integer", "object", "array", "null"]

/-- A schema of one known type, without combinations and without listed values. -/
def isPlainSchema (schema : Schema) : Bool :=
  match schema.inline? with
  | some object =>
    object.enum.isNone && object.oneOf.isNone && object.anyOf.isNone && object.allOf.isNone
      && match object.type with
        | some (.single name) => typeNames.contains name
        | _ => false
  | none => false

end OpenApi

namespace TypeExpr

/-- A bare `string` or `number` would swallow the literals beside it in a union; wrapped, it keeps
them visible. -/
def widen : TypeExpr → TypeExpr
  | keyword .string => named "NonNullable" [string]
  | keyword .number => named "NonNullable" [number]
  | type => type

/-- The members of a union with their bare keywords wrapped, if there are several. -/
def widenAll (types : List (Option TypeExpr)) : List (Option TypeExpr) :=
  if types.length ≤ 1 then types else types.map (Option.map widen)

/-- The types without those whose text has occurred before. -/
def distinctTexts (seen : List String) : List TypeExpr → List TypeExpr
  | [] => []
  | type :: types =>
    if seen.contains type.render then distinctTexts seen types
    else type :: distinctTexts (seen ++ [type.render]) types

/-- The union of the types of the members that have one, if any has. -/
def unionOf? (types : List TypeExpr) : Option TypeExpr :=
  if types.isEmpty then none else some (ofUnion types)

/-- The intersection of the types of the members that have one, if any has. -/
def intersectionOf? (types : List TypeExpr) : Option TypeExpr :=
  if types.isEmpty then none else some (ofIntersection types)

/-- The type of a scalar as a value, or as the text it is written as. -/
def scalar (coerce : Bool) (type : TypeExpr) : TypeExpr := if coerce then stringified type else type

/-- The type of a type name; objects and arrays are described by further keywords. -/
def ofTypeName (coerce : Bool) (object array : Inspect TypeExpr) (name : String) :
    Inspect (Option TypeExpr) :=
  match name with
  | "boolean" => return some (scalar coerce boolean)
  | "string" => return some string
  | "number" => return some (scalar coerce number)
  | "integer" => return some (scalar coerce number)
  | "object" => return some (← object)
  | "array" => return some (← array)
  | "null" => return some (scalar coerce null)
  | _ => return none

/-- The types of a list of type names, without the unknown names. -/
def ofTypeNames (coerce : Bool) (object array : Inspect TypeExpr) :
    List String → Inspect (List TypeExpr)
  | [] => return []
  | name :: names => do
    let type ← ofTypeName coerce object array name
    let types ← ofTypeNames coerce object array names
    return type.toList ++ types

/-- The type of the keyword `type`. -/
def ofTypeKeyword (coerce : Bool) (object array : Inspect TypeExpr) :
    Option TypeName → Inspect (Option TypeExpr)
  | none => return none
  | some (.single name) => ofTypeName coerce object array name
  | some (.several names) => return unionOf? (← ofTypeNames coerce object array names)

/-- The dictionary of an object without described properties. -/
def anyRecord (coerce : Bool) : TypeExpr := record (if coerce then string else unknown)

/-- The array of the items' type. -/
def arrayOf (coerce : Bool) (item : Option TypeExpr) : TypeExpr :=
  array (item.getD (if coerce then string else unknown))

/-- The type of the members of `anyOf`: equal texts once, and nothing wrapped where all members
are plain. -/
def ofAnyOf (members : List Schema) (types : Inspect (List (Option TypeExpr))) :
    Inspect (Option TypeExpr) := do
  let objects := members.countP isObjectSchema
  if 1 < objects then Inspect.warn objects
  let types ← types
  let types := if members.all isPlainSchema then types else widenAll types
  return unionOf? (distinctTexts [] (types.filterMap id))

/-- `base` with what `additionalProperties` adds to it. -/
def withAdditional (values : Option (Inspect (Option TypeExpr))) (base : Option TypeExpr) :
    Inspect (Option TypeExpr) :=
  match values, base with
  | some values, some base => do
    let values ← values
    return some (ofIntersection [base, record (values.getD unknown)])
  | _, base => return base

/-- `base` without what `not` excludes. -/
def withNot (excluded : Option (Inspect (Option TypeExpr))) (base : Option TypeExpr) :
    Inspect (Option TypeExpr) :=
  match excluded, base with
  | some excluded, some base => do
    match ← excluded with
    | some excluded => return some (named "Exclude" [base, excluded])
    | none => return some base
  | _, base => return base

/-- `base`, and null if the schema is nullable. -/
def withNull (nullable : Option Bool) (base : Option TypeExpr) : Option TypeExpr :=
  if nullable = some true then
    match base with
    | some base => some (ofUnion [base, null])
    | none => some null
  else base

mutual
/-- The type of a schema, if it has one. -/
def ofSchema (coerce : Bool) : Schema → Inspect (Option TypeExpr)
  | .reference pointer => return some (name (referenceName pointer))
  | .inline node => ofObject coerce node

/-- The type of a schema node: the base, and then the keywords around it from the inside out. -/
def ofObject (coerce : Bool) : SchemaObject → Inspect (Option TypeExpr)
  | ⟨_, _, type, nullable, not, additional, allOf, oneOf, anyOf, enum, properties, required, items,
      _, _, _, _⟩ => do
    let base ←
      match ofMembers? coerce allOf, ofMembers? coerce oneOf, anyOf, ofMembers? coerce anyOf, enum with
      | some types, _, _, _, _ => (fun types => intersectionOf? (types.filterMap id)) <$> types
      | none, some types, _, _, _ => (fun types => unionOf? ((widenAll types).filterMap id)) <$> types
      | none, none, some members, some types, _ => ofAnyOf members types
      | none, none, _, _, some values => pure (some (ofUnion (values.map literal)))
      | none, none, _, _, none =>
        ofTypeKeyword coerce (ofProperties? coerce required properties)
          (arrayOf coerce <$> ofItem coerce items) type
    let base ← withAdditional (ofAdditional? coerce additional) base
    let base ← withNot (ofSchema? coerce not) base
    return withNull nullable base

/-- The computation for an optional schema. -/
def ofSchema? (coerce : Bool) : Option Schema → Option (Inspect (Option TypeExpr))
  | none => none
  | some schema => some (ofSchema coerce schema)

/-- The type of an optional schema; without a schema there is none. -/
def ofItem (coerce : Bool) : Option Schema → Inspect (Option TypeExpr)
  | none => return none
  | some schema => ofSchema coerce schema

/-- The computation for the values of further properties, if these are allowed. -/
def ofAdditional? (coerce : Bool) :
    Option (AdditionalProperties Schema) → Option (Inspect (Option TypeExpr))
  | none => none
  | some additional => ofAdditional coerce additional

def ofAdditional (coerce : Bool) :
    AdditionalProperties Schema → Option (Inspect (Option TypeExpr))
  | .flag allowed => if allowed then some (return none) else none
  | .schema schema => some (ofSchema coerce schema)

/-- The computation for an optional list of schemas. -/
def ofMembers? (coerce : Bool) : Option (List Schema) → Option (Inspect (List (Option TypeExpr)))
  | none => none
  | some members => some (ofMembers coerce members)

/-- The types of a list of schemas. -/
def ofMembers (coerce : Bool) : List Schema → Inspect (List (Option TypeExpr))
  | [] => return []
  | schema :: schemas => do
    let type ← ofSchema coerce schema
    let types ← ofMembers coerce schemas
    return type :: types

/-- The type of an object with the described properties. -/
def ofProperties? (coerce : Bool) (required : List String) :
    Option (List (String × Schema)) → Inspect TypeExpr
  | none => return anyRecord coerce
  | some properties => do
    match ← ofProperties coerce required properties with
    | [] => return record never
    | members => return object members

/-- A member for each property, optional unless it is required. -/
def ofProperties (coerce : Bool) (required : List String) :
    List (String × Schema) → Inspect (List Member)
  | [] => return []
  | (key, schema) :: properties => do
    let type ← ofSchema coerce schema
    let members ← ofProperties coerce required properties
    return { name := key, type := type.getD unknown, isOptional := !required.contains key } :: members
end

end TypeExpr
end ApiTypings
