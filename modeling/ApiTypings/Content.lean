/-
Bodies by content type.

Content types fall into a few kinds; each kind decides the type of a request body and what
a response with such a body offers.
-/
import ApiTypings.OpenApi.Basic
import ApiTypings.Settings
import ApiTypings.StatusCode
import ApiTypings.Text.Word
import ApiTypings.TypeExpr.OfSchema

namespace ApiTypings

open OpenApi

/-- The kinds of content that are told apart. -/
inductive ContentKind
  | json
  | plainText
  | multipart
  | formUrlEncoded
  | octetStream
  | eventStream
  | other
  deriving DecidableEq

namespace ContentKind

/-- A content type without its parameters, trimmed and in lower case. -/
def essence (contentType : String) : String :=
  let beforeParameters := contentType.toList.takeWhile (· ≠ ';')
  String.ofList ((Text.trim (String.ofList beforeParameters)).toList.map Text.toLower)

/-- Whether an essence is an application type with the suffix `+json`. -/
def isJsonSuffixed (essence : String) : Bool :=
  "application/".toList.isPrefixOf essence.toList && "+json".toList.isSuffixOf essence.toList

/-- The kind of a content type. -/
def of (contentType : String) : ContentKind :=
  let essence := essence contentType
  if essence = "application/json" then json
  else if essence = "text/plain" then plainText
  else if essence = "multipart/form-data" then multipart
  else if essence = "application/x-www-form-urlencoded" then formUrlEncoded
  else if essence = "application/octet-stream" then octetStream
  else if essence = "text/event-stream" then eventStream
  else if isJsonSuffixed essence then json
  else other

end ContentKind

namespace TypeExpr

/-- Text that is the JSON of a value of the type. -/
def jsonString (type : TypeExpr) : TypeExpr := named "JSONString" [type]

def promise (type : TypeExpr) : TypeExpr := named "Promise" [type]

/-- The type of a request body. -/
def ofRequestBody (contentType : String) (schema : Option Schema) (settings : Settings) :
    Inspect TypeExpr :=
  match ContentKind.of contentType with
  | .json => do return jsonString ((← ofItem false schema).getD unknown)
  | .plainText => return string
  | .multipart => return name "FormData"
  | .formUrlEncoded => do
    match ← ofItem true schema with
    | none => return name "URLSearchParams"
    | some fields =>
      return ofUnion (named "URLSearchParamsString" [fields]
        :: if settings.experimentalUrlSearchParams then [] else [named "URLSearchParams" [fields]])
  | .octetStream => return ofUnion [name "ReadableStream", name "Blob", name "BufferSource"]
  | .eventStream | .other => return name "BodyInit"

/-- The members of a response that each of its variants declares anew. -/
def responseAccessors : List String :=
  ["ok", "status", "arrayBuffer", "blob", "formData", "json", "text"]

/-- Whether the response is a success, and its code. -/
def responseHead (codes : StatusCode.CodeSet) : List Member :=
  [.property "ok" (match codes.success? with
      | some isSuccess => literal (.boolean isSuccess)
      | none => boolean),
    .property "status" (ofUnion (codes.codes.map fun code => literal (.ofNat code)))]

/-- The body of a response as a stream. -/
def streamMember : Member :=
  { name := "body", type := named "ReadableStream" [name "Uint8Array"], isReadonly := true }

/-- What a response with a body of the given content type offers. -/
def accessorsOf (contentType : String) (schema : Option Schema) : Inspect (List Member) :=
  match ContentKind.of contentType with
  | .json => do
    let type := (← ofItem false schema).getD unknown
    return [.method "json" (promise type), .method "text" (promise (jsonString type))]
  | .plainText => return [.method "text" (promise string)]
  | .multipart => return [.method "formData" (promise (name "FormData"))]
  | .eventStream => return [streamMember]
  | .octetStream =>
    return [streamMember, .method "arrayBuffer" (promise (name "ArrayBuffer")),
      .method "blob" (promise (name "Blob"))]
  | .formUrlEncoded | .other => return []

/-- One object type for each content type. -/
def responseVariants (codes : StatusCode.CodeSet) :
    List (String × MediaType) → Inspect (List TypeExpr)
  | [] => return []
  | (contentType, media) :: rest => do
    let accessors ← accessorsOf contentType media.schema
    let types ← responseVariants codes rest
    return object (responseHead codes ++ accessors) :: types

/-- The type of a response under the codes of its key: one variant for each content type, or a
single one if it has no content. -/
def ofResponse (codes : StatusCode.CodeSet) (response : Response) : Inspect TypeExpr :=
  match response.content with
  | [] => return object (responseHead codes)
  | content => do return ofUnion (← responseVariants codes content)

end TypeExpr
end ApiTypings
