/-
What a user may choose about the generated declarations.
-/
import ApiTypings.Json.Printer

namespace ApiTypings

/-- The URL forms that overloads accept, and the experimental features. -/
structure Settings where
  /-- texts that a URL may begin with -/
  baseUrls : List String := []
  /-- accept any scheme and host before the path -/
  includeAbsoluteUrl : Bool := false
  /-- accept the server URLs of the document before the path -/
  includeServerUrls : Bool := true
  /-- accept the path alone -/
  includeRelativeUrl : Bool := false
  /-- take form bodies as typed text only -/
  experimentalUrlSearchParams : Bool := false
  /-- the literal that bounds a type parameter of every overload -/
  experimentalDiscriminator : Option String := none
  /-- leave out the default of that type parameter -/
  experimentalRequireDiscriminator : Bool := false
  deriving DecidableEq

namespace Settings

/-- Only the path alone is accepted. -/
def relative : Settings := { includeServerUrls := false, includeRelativeUrl := true }

def toJson (settings : Settings) : Json := .object [
  ("baseUrls", .array (settings.baseUrls.map .string)),
  ("includeAbsoluteUrl", .boolean settings.includeAbsoluteUrl),
  ("includeServerUrls", .boolean settings.includeServerUrls),
  ("includeRelativeUrl", .boolean settings.includeRelativeUrl),
  ("experimentalURLSearchParams", .boolean settings.experimentalUrlSearchParams),
  ("experimentalDiscriminator",
    match settings.experimentalDiscriminator with
    | some name => .string name
    | none => .null),
  ("experimentalRequireDiscriminator", .boolean settings.experimentalRequireDiscriminator)]

end Settings
end ApiTypings
