/-
Type expressions of the generated declarations.

The constructors hold what is written; `ofUnion` and `ofIntersection` are how unions and
intersections are built.  They take the members of an operand of their own kind in its
place, return a single member as it is, and give `never` and `unknown` for no member.
-/
import ApiTypings.Json.Basic

namespace ApiTypings

/-- The built-in types that a keyword names. -/
inductive Keyword
  | string
  | number
  | boolean
  | null
  | unknown
  | never
  deriving DecidableEq

mutual
/-- A type expression. -/
inductive TypeExpr
  | keyword (keyword : Keyword)
  /-- a JSON value as a type of its own -/
  | literal (value : Json)
  /-- a named type, perhaps applied to arguments -/
  | named (name : String) (args : List TypeExpr)
  /-- the strings that a template produces -/
  | template (parts : List TemplatePart)
  | array (item : TypeExpr)
  | object (members : List Member)
  | union (members : List TypeExpr)
  | intersection (members : List TypeExpr)

/-- A piece of a template: text, or a type whose values are written in its place. -/
inductive TemplatePart
  | text (text : String)
  | type (type : TypeExpr)

/-- A member of an object type. A method takes no arguments, and its type is what it returns. -/
structure Member where
  name : String
  type : TypeExpr
  isOptional : Bool := false
  isReadonly : Bool := false
  isMethod : Bool := false
end

namespace TypeExpr

instance : Inhabited TypeExpr := ⟨keyword .unknown⟩

def string : TypeExpr := keyword .string
def number : TypeExpr := keyword .number
def boolean : TypeExpr := keyword .boolean
def null : TypeExpr := keyword .null
def unknown : TypeExpr := keyword .unknown
def never : TypeExpr := keyword .never

/-- The literal type of a text. -/
def text (value : String) : TypeExpr := literal (.string value)

/-- A named type without arguments. -/
def name (name : String) : TypeExpr := named name []

/-- Dictionaries from any key to `value`. -/
def record (value : TypeExpr) : TypeExpr := named "Record" [string, value]

/-- The strings that the values of a type are written as. -/
def stringified (inner : TypeExpr) : TypeExpr := template [.type inner]

/-- The members of a union, or the type itself. -/
def alternatives : TypeExpr → List TypeExpr
  | union members => members
  | type => [type]

/-- The members of an intersection, or the type itself. -/
def conjuncts : TypeExpr → List TypeExpr
  | intersection members => members
  | type => [type]

/-- The union of types, with the members of unions among them in their place. -/
def ofUnion (types : List TypeExpr) : TypeExpr :=
  match types.flatMap alternatives with
  | [] => never
  | [type] => type
  | members => union members

/-- The intersection of types, with the members of intersections among them in their place. -/
def ofIntersection (types : List TypeExpr) : TypeExpr :=
  match types.flatMap conjuncts with
  | [] => unknown
  | [type] => type
  | members => intersection members

end TypeExpr

namespace Member

def property (name : String) (type : TypeExpr) : Member := { name, type }

def method (name : String) (returns : TypeExpr) : Member :=
  { name, type := returns, isMethod := true }

end Member
end ApiTypings
