/-
The text of a document.

A text that is JSON is read as JSON, and any other text as YAML, whose merge keys are
applied before it becomes a JSON value.
-/
import ApiTypings.Yaml.Merge
import ApiTypings.Yaml.Reader
import ApiTypings.Yaml.ToJson

namespace ApiTypings.SourceText

/-- Why a text is no document. -/
inductive Problem
  /-- it is neither JSON nor YAML -/
  | unreadable
  | merge (failure : Yaml.MergeFailure)
  /-- a mapping has a key that is no scalar -/
  | unsupportedKey
  deriving DecidableEq, Repr

def Problem.message : Problem → String
  | unreadable => "document is neither JSON nor YAML"
  | merge failure => failure.message
  | unsupportedKey => "unsupported YAML mapping key"

/-- The value that a text describes. -/
def read (text : String) : Except Problem Json :=
  match Json.read? text with
  | some value => .ok value
  | none =>
    match Yaml.Value.read? text with
    | none => .error .unreadable
    | some value =>
      match value.merge with
      | .error failure => .error (.merge failure)
      | .ok value =>
        match value.toJson? with
        | some value => .ok value
        | none => .error .unsupportedKey

end ApiTypings.SourceText
