/-
Filters over documents.

A filter is read, checked for names without a meaning, and evaluated.  Its outputs are
JSON text, because a number keeps the spelling that it has in the filter, and not every
spelling is JSON.  A document is filtered by a filter with exactly one output that can be
read back.
-/
import ApiTypings.Query.Evaluation

namespace ApiTypings.Query

/-- Why a document cannot be filtered. -/
inductive Problem
  /-- the text is no filter -/
  | unreadable
  /-- a filter, a variable or a label has no meaning -/
  | unknownName
  /-- the evaluation ended with an error -/
  | failed
  /-- there is not exactly one output -/
  | notSingle (filter : String) (count : Nat)
  /-- the output is no JSON -/
  | notJson
  deriving DecidableEq, Repr

def Problem.message : Problem → String
  | unreadable => "parse error"
  | unknownName => "undefined name"
  | failed => "jq error"
  | notSingle filter count =>
    "jq expression \x60" ++ filter ++ "\x60 must produce exactly one document, got "
      ++ toString count
  | notJson => "jq expression produced invalid JSON"

/-- The texts of all outputs of a filter. -/
def outputs (filter : String) (input : Json) : Except Problem (List String) :=
  match Term.ofText? filter with
  | none => .error .unreadable
  | some term =>
    if !Known.everywhere.covers term then .error .unknownName
    else
      match (Evaluation.run Evaluation.nestingLimit 0 Prelude.scope term (.ofJson input)).toList with
      | .ok values => .ok (values.map Value.render)
      | .error _ => .error .failed

/-- The only output of a filter as a document. -/
def transform (filter : String) (input : Json) : Except Problem Json := do
  match ← outputs filter input with
  | [text] =>
    match Json.read? text with
    | some value => return value
    | none => throw .notJson
  | texts => throw (.notSingle filter texts.length)

end ApiTypings.Query
