/-
One overload of `fetch` for each path, method and request content type.

The overloads of one operation differ in the type of their body and the content type among
their headers, and in nothing else.
-/
import ApiTypings.Content
import ApiTypings.Declaration
import ApiTypings.UrlTemplate

namespace ApiTypings

open OpenApi

/-- A computation that may warn and may fail. -/
abbrev Build (α : Type) := ExceptT Failure Inspect α

namespace Build

/-- A result that does not depend on findings. -/
def ofExcept {α : Type} (result : Except Failure α) : Build α := ExceptT.mk (pure result)

end Build

namespace Overload

/-- Equality of ASCII texts up to case. -/
def sameHeader (a b : String) : Bool :=
  a.toList.map Text.toLower = b.toList.map Text.toLower

/-- The members of header parameters. -/
def headerMembers : List Parameter → Inspect (List Member)
  | [] => return []
  | header :: rest => do
    let type ← UrlTemplate.valueType false header
    let members ← headerMembers rest
    return { name := header.name, type, isOptional := !header.required } :: members

/-- The content type as a header, unless a parameter declares it. -/
def contentTypeMember (headers : List Parameter) : Option String → List Member
  | none => []
  | some contentType =>
    if headers.any fun header => sameHeader header.name "content-type" then []
    else [.property "Content-Type" (.text contentType)]

/-- The type of the headers of a request, if it has any. -/
def headersType (table : ParameterTable) (contentType : Option String) :
    Inspect (Option TypeExpr) := do
  let headers := table.inLocation .header
  let members := contentTypeMember headers contentType ++ (← headerMembers headers)
  if members.isEmpty then return none
  else return some (.named "TypedHeadersInit" [.object members])

/-- A type without some of its members. -/
def without (base : String) (keys : List String) : TypeExpr :=
  .named "Omit" [.name base, .ofUnion (keys.map .text)]

/-- The bodies that a request may have: a content type with a type for each, or none at all. -/
def requestBodies (settings : Settings) :
    List (String × MediaType) → Inspect (List (String × TypeExpr))
  | [] => return []
  | (contentType, media) :: rest => do
    let type ← TypeExpr.ofRequestBody contentType media.schema settings
    let bodies ← requestBodies settings rest
    return (contentType, type) :: bodies

/-- The types of responses, in the order of their keys. -/
def responseTypes (document : Document) :
    List (StatusCode.CodeSet × Referable Response) → Build (List TypeExpr)
  | [] => return []
  | (codes, entry) :: rest => do
    let response ← Build.ofExcept (document.fetch OpenApi.response.decode entry)
    let type ← ExceptT.lift (TypeExpr.ofResponse codes response)
    let types ← responseTypes document rest
    return type :: types

/-- The keys of responses as code sets. -/
def expandResponses (method : Method) (pattern : String)
    (responses : List (String × Referable Response)) :
    Except Failure (List (StatusCode.CodeSet × Referable Response)) :=
  match StatusCode.expand .standard responses with
  | .ok expanded => .ok expanded
  | .error key => .error (.invalidStatusCode key method pattern)

/-- What a request returns: any response where none is declared, else one of the declared. -/
def returnType (responses : List TypeExpr) : TypeExpr :=
  match responses with
  | [] => .promise (.name "Response")
  | types => .promise
    (.ofIntersection [without "Response" TypeExpr.responseAccessors, .ofUnion types])

/-- The documentation of an operation. -/
def docsOf (operation : Operation) : Option Docs :=
  Docs.nonEmpty? {
    description := operation.description.bind Text.nonBlank?
    tags := (if operation.deprecated then [⟨"deprecated", none⟩] else [])
      ++ (match operation.summary.bind Text.nonBlank? with
        | some summary => [⟨"summary", some summary⟩]
        | none => []) }

/-- The type parameter that tells the declarations of several documents apart. -/
def discriminator (settings : Settings) : List TypeParameter :=
  match settings.experimentalDiscriminator with
  | none => []
  | some name =>
    if name = "" then []
    else [{
      name := "T"
      constraint := some (.text name)
      default := if settings.experimentalRequireDiscriminator then none else some (.text name) }]

/-- The second argument of an overload. It may be left out for a `GET` without a body. -/
def initArgument (method : Method) (body : Option RequestBody) (bodyType headers : Option TypeExpr) :
    Argument where
  name := "init"
  isOptional := method = .get && body.isNone
  type := .ofIntersection [
    without "RequestInit" (["method", "body"] ++ if headers.isSome then ["headers"] else []),
    .object ([{ name := "method", type := .text method.upperName, isOptional := method = .get }]
      ++ (bodyType.toList.map fun type =>
        { name := "body", type, isOptional := !(body.map (·.required)).getD false })
      ++ headers.toList.map (.property "headers"))]

/-- What the overloads of one operation have in common. -/
structure Common where
  method : Method
  table : ParameterTable
  body : Option RequestBody
  docs : Option Docs
  typeParameters : List TypeParameter
  input : TypeExpr
  returns : TypeExpr

/-- The overload for one body. -/
def ofBody (common : Common) (body : Option (String × TypeExpr)) : Inspect Signature := do
  let headers ← headersType common.table (body.map Prod.fst)
  return {
    docs := common.docs
    name := "fetch"
    typeParameters := common.typeParameters
    arguments := [
      { name := "input", type := common.input },
      initArgument common.method common.body (body.map Prod.snd) headers]
    returns := common.returns }

def ofBodies (common : Common) : List (Option (String × TypeExpr)) → Inspect (List Signature)
  | [] => return []
  | body :: bodies => do
    let signature ← ofBody common body
    let signatures ← ofBodies common bodies
    return signature :: signatures

/-- The overloads of an operation. The table holds the parameters of its path, which its own
parameters are laid over. -/
def ofOperation (document : Document) (settings : Settings) (pattern : String)
    (shared : ParameterTable) (method : Method) (operation : Operation) :
    Build (List Signature) := do
  let table ← Build.ofExcept (shared.add? document operation.parameters)
  let body ← Build.ofExcept
    (match operation.requestBody with
      | none => .ok none
      | some entry => (document.fetch OpenApi.requestBody.decode entry).map some)
  let bodies ← ExceptT.lift (requestBodies settings ((body.map (·.content)).getD []))
  let responses ← Build.ofExcept (expandResponses method pattern (operation.responses.getD []))
  let responses ← responseTypes document responses
  let path ← ExceptT.lift (UrlTemplate.path pattern table)
  let input ← Build.ofExcept (UrlTemplate.input document settings path)
  let common : Common := {
    method, table, body, input
    docs := docsOf operation
    typeParameters := discriminator settings
    returns := returnType responses }
  ExceptT.lift (ofBodies common (if bodies.isEmpty then [none] else bodies.map some))

/-- The result of a computation at one place, with the warnings. -/
def runAt {α : Type} (location : String) (build : Build α) : Except Failure (α × List Warning) :=
  match Inspect.runAt location build.run with
  | (.ok value, warnings) => .ok (value, warnings)
  | (.error failure, _) => .error failure

/-- The overloads of the methods of a path item, which `shared` holds the parameters of. -/
def ofMethods (document : Document) (settings : Settings) (pattern : String)
    (shared : ParameterTable) (item : PathItem) :
    List Method → Except Failure (List Signature × List Warning)
  | [] => .ok ([], [])
  | method :: methods =>
    match item.slots method with
    | .absent => ofMethods document settings pattern shared item methods
    | .null => .error (.undefinedOperation method pattern)
    | .operation operation => do
      let (signatures, warnings) ← runAt (method.upperName ++ " " ++ pattern)
        (ofOperation document settings pattern shared method operation)
      let (rest, restWarnings) ← ofMethods document settings pattern shared item methods
      return (signatures ++ rest, warnings ++ restWarnings)

/-- A path item together with the one that it refers to. -/
def effectiveItem (document : Document) (item : PathItem) : Except Failure PathItem :=
  match item.reference with
  | none => .ok item
  | some reference =>
    match document.target OpenApi.pathItem.decode reference with
    | .ok other => .ok (item.overlay other)
    | .error failure => .error failure

/-- The overloads of a path item. -/
def ofPathItem (document : Document) (settings : Settings) (pattern : String) (item : PathItem) :
    Except Failure (List Signature × List Warning) := do
  let item ← effectiveItem document item
  let shared ← ParameterTable.add? document [] (item.parameters.getD [])
  ofMethods document settings pattern shared item Method.all

/-- Adds the overloads of paths to a scope. The first path item that fails ends this; the scope
then holds the overloads of the path items before it. -/
def addPaths (document : Document) (settings : Settings) :
    List (String × PathItem) → Scope → Scope × Except Failure (List Warning)
  | [], scope => (scope, .ok [])
  | (pattern, item) :: paths, scope =>
    match ofPathItem document settings pattern item with
    | .error failure => (scope, .error failure)
    | .ok (signatures, warnings) =>
      match addPaths document settings paths (scope.addFunctions signatures) with
      | (scope, .error failure) => (scope, .error failure)
      | (scope, .ok rest) => (scope, .ok (warnings ++ rest))

end Overload
end ApiTypings
