/-
Why no declarations are generated.
-/
import ApiTypings.Json.Pointer
import ApiTypings.OpenApi.Basic
import ApiTypings.OpenApi.Decoder
import ApiTypings.Settings
import ApiTypings.TypeExpr.Printer

namespace ApiTypings

open OpenApi

/-- A failure that ends the generation. Whatever can be given an open type is no failure. -/
inductive Failure
  | reference (error : ReferenceError)
  /-- a response key that is no code, no class and not `default` -/
  | invalidStatusCode (code : String) (method : Method) (pattern : String)
  /-- a method with a null in place of an operation -/
  | undefinedOperation (method : Method) (pattern : String)
  /-- no URL form is accepted -/
  | noInputUrls (path : TypeExpr) (settings : Settings)
  /-- a value, reached through the reference `origin` or by no reference, does not decode -/
  | malformed (origin : String) (fault : Fault)

/-- The place of a fault in a value that was reached through `origin`. -/
def Fault.place (origin : String) (fault : Fault) : String :=
  let path := renderPath fault.path
  if origin = "" then path
  else if path = "." then origin
  else origin ++ " → " ++ path

namespace Failure

def message : Failure → String
  | reference error => error.message
  | invalidStatusCode code method pattern =>
    "invalid status code \x60" ++ code ++ "\x60 for " ++ method.lowerName ++ " " ++ pattern
  | undefinedOperation method pattern =>
    "operation is undefined for " ++ method.lowerName ++ " " ++ pattern
  | noInputUrls path settings =>
    "no URLs were generated for " ++ path.render ++ " with the options:\n"
      ++ settings.toJson.pretty ++ "\n\n"
      ++ "You may want to run with one of the following options:\n"
      ++ "  --base-urls <URLS>      A comma separated list of custom base urls for paths to start with\n"
      ++ "  --include-server-urls   Include server URLs from the schema in the generated paths\n"
      ++ "  --include-absolute-url  Include absolute URLs in the generated paths\n"
      ++ "  --include-relative-url  Include relative URLs in the generated paths"
  | malformed origin fault =>
    "malformed document at JSON path " ++ fault.place origin ++ ": " ++ fault.cause.message

end Failure

/-- Decodes a value that was reached through the reference `origin`; an empty origin is none. -/
def Decoder.decodeFrom {α : Type} (origin : String) (decoder : Decoder α) (value : Json) :
    Except Failure α :=
  match decoder value with
  | .ok result => .ok result
  | .error fault => .error (.malformed origin fault)

theorem Decoder.decodeFrom_eq_ok {α : Type} {origin : String} {decoder : Decoder α} {value : Json}
    {result : α} : decodeFrom origin decoder value = .ok result ↔ decoder value = .ok result := by
  unfold decodeFrom
  cases decoder value <;> simp

end ApiTypings
