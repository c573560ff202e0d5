/-
The text of type expressions.

Unions bind loosest, intersections tighter, everything else tightest; parentheses stand
exactly where an operand binds looser than its place allows.  Member names that are
not identifiers are written as string literals, and the text of a template has its
backslashes, backticks and placeholder openings escaped.
-/
import ApiTypings.Json.Printer
import ApiTypings.Text.Word
import ApiTypings.TypeExpr.Basic

namespace ApiTypings

/-- A member name as it is written: an identifier as it is, anything else quoted. -/
def memberKey (name : String) : String :=
  if Text.isIdentifier name then name else Json.quote name

def Keyword.render : Keyword → String
  | .string => "string"
  | .number => "number"
  | .boolean => "boolean"
  | .null => "null"
  | .unknown => "unknown"
  | .never => "never"

/-- Template text with a backslash before each backslash and each backtick, and before each dollar
sign that an opening brace follows. -/
def escapeTemplate : List Char → List Char
  | [] => []
  | '$' :: '\x7b' :: rest => '\\' :: '$' :: '\x7b' :: escapeTemplate rest
  | c :: rest =>
    if c = '\\' ∨ c = '\x60' then '\\' :: c :: escapeTemplate rest else c :: escapeTemplate rest

/-- How tightly the outermost constructor of a type binds. -/
inductive Binding
  | union
  | intersection
  | tight
  deriving DecidableEq

namespace Binding

def rank : Binding → Nat
  | union => 0
  | intersection => 1
  | tight => 2

end Binding

namespace TypeExpr

def binding : TypeExpr → Binding
  | union _ => .union
  | intersection _ => .intersection
  | _ => .tight

/-- `text` in parentheses, where `type` binds looser than `least`. -/
def parenthesize (least : Binding) (type : TypeExpr) (text : String) : String :=
  if type.binding.rank < least.rank then "(" ++ text ++ ")" else text

mutual
/-- The text of a type where any type may stand. -/
def render : TypeExpr → String
  | keyword k => k.render
  | literal value => value.render
  | named name [] => name
  | named name (arg :: args) => name ++ "<" ++ render arg ++ renderArguments args ++ ">"
  | template parts => "\x60" ++ renderParts parts ++ "\x60"
  | array item => parenthesize .tight item (render item) ++ "[]"
  | object [] => "\x7b\x7d"
  | object (member :: members) =>
    "\x7b " ++ renderMember member ++ renderMembers members ++ " \x7d"
  | union [] => ""
  | union (type :: types) =>
    parenthesize .intersection type (render type) ++ renderOperands " | " .intersection types
  | intersection [] => ""
  | intersection (type :: types) =>
    parenthesize .tight type (render type) ++ renderOperands " & " .tight types

/-- Arguments behind the first. -/
def renderArguments : List TypeExpr → String
  | [] => ""
  | arg :: args => ", " ++ render arg ++ renderArguments args

/-- Operands behind the first. -/
def renderOperands (separator : String) (least : Binding) : List TypeExpr → String
  | [] => ""
  | type :: types =>
    separator ++ parenthesize least type (render type) ++ renderOperands separator least types

def renderParts : List TemplatePart → String
  | [] => ""
  | .text text :: parts => String.ofList (escapeTemplate text.toList) ++ renderParts parts
  | .type type :: parts => "$\x7b" ++ render type ++ "\x7d" ++ renderParts parts

/-- Members behind the first. -/
def renderMembers : List Member → String
  | [] => ""
  | member :: members => "; " ++ renderMember member ++ renderMembers members

def renderMember : Member → String
  | ⟨name, type, isOptional, isReadonly, isMethod⟩ =>
    (if isReadonly then "readonly " else "") ++ memberKey name ++ (if isOptional then "?" else "")
      ++ (if isMethod then "()" else "") ++ ": " ++ render type
end

end TypeExpr
end ApiTypings
