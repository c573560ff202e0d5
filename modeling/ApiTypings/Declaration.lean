/-
Declarations: overloads of functions and aliases of types, with their documentation.
-/
import ApiTypings.TypeExpr.Basic

namespace ApiTypings

/-- A tag of a documentation comment. -/
structure DocTag where
  name : String
  text : Option String := none

/-- A documentation comment. -/
structure Docs where
  description : Option String := none
  tags : List DocTag := []

namespace Docs

/-- The comment, unless it has nothing to say. -/
def nonEmpty? (docs : Docs) : Option Docs :=
  if docs.description.isNone && docs.tags.isEmpty then none else some docs

end Docs

structure TypeParameter where
  name : String
  constraint : Option TypeExpr := none
  default : Option TypeExpr := none

/-- An argument of a function. -/
structure Argument where
  name : String
  isOptional : Bool := false
  type : TypeExpr

/-- A function declaration. -/
structure Signature where
  docs : Option Docs := none
  name : String
  typeParameters : List TypeParameter := []
  arguments : List Argument
  returns : TypeExpr

/-- A type declaration. -/
structure Alias where
  docs : Option Docs := none
  name : String
  type : TypeExpr

/-- The declarations of one place of a file. -/
structure Scope where
  functions : List Signature := []
  aliases : List Alias := []

namespace Scope

def addFunctions (scope : Scope) (functions : List Signature) : Scope :=
  { scope with functions := scope.functions ++ functions }

def addAliases (scope : Scope) (aliases : List Alias) : Scope :=
  { scope with aliases := scope.aliases ++ aliases }

end Scope
end ApiTypings
