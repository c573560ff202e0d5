/-
URLs as template types: path patterns with their query, and the forms of a URL.

Patterns and server URLs are cut at braces in the same way.  From the first opening brace
the name extends to the next closing brace; a brace that is never closed is text, and so
is a name that stands for nothing.
-/
import ApiTypings.Failure
import ApiTypings.ParameterTable
import ApiTypings.TypeExpr.OfSchema

namespace ApiTypings

open OpenApi

/-- A piece of a pattern. -/
inductive PatternPiece
  | text (text : List Char)
  /-- a name between braces -/
  | braced (name : List Char)

namespace PatternPiece

mutual
/-- Cuts a pattern at its names in braces. The text before the next brace is kept in reverse. -/
def cutText (before : List Char) : List Char → List PatternPiece
  | [] => [text before.reverse]
  | c :: rest =>
    if c = '\x7b' then cutName before [] rest else cutText (c :: before) rest

/-- Cuts inside braces. The name is kept in reverse. -/
def cutName (before name : List Char) : List Char → List PatternPiece
  | [] => [text (before.reverse ++ '\x7b' :: name.reverse)]
  | c :: rest =>
    if c = '\x7d' then text before.reverse :: braced name.reverse :: cutText [] rest
    else cutName before (c :: name) rest
end

/-- The pieces of a pattern; written one after the other they give the pattern. -/
def ofPattern (pattern : String) : List PatternPiece := cutText [] pattern.toList

end PatternPiece

namespace TemplatePart

/-- Puts text in front of a template, as one part with the text that stands there. -/
def growText (front : String) : List TemplatePart → List TemplatePart
  | .text next :: rest => .text (front ++ next) :: rest
  | parts => .text front :: parts

/-- Puts text in front of a template, unless it is empty. -/
def prependText (front : String) (parts : List TemplatePart) : List TemplatePart :=
  if front = "" then parts else growText front parts

/-- Joins neighbouring texts and drops empty ones. -/
def merge : List TemplatePart → List TemplatePart
  | [] => []
  | .text front :: parts => prependText front (merge parts)
  | .type inner :: parts => .type inner :: merge parts

/-- A path with a form in front of it. The text that a form begins with stays a part, also if it is
empty and no text follows it. -/
def prefixed : List TemplatePart → List TemplatePart → List TemplatePart
  | .text front :: form, path => growText front (merge (form ++ path))
  | form, path => merge (form ++ path)

/-- The parts of pieces, where `typeOf?` gives the types of the names that stand for one. -/
def ofPieces (typeOf? : String → Option (Inspect TypeExpr)) :
    List PatternPiece → Inspect (List TemplatePart)
  | [] => return []
  | .text chars :: pieces => do
    return .text (String.ofList chars) :: (← ofPieces typeOf? pieces)
  | .braced name :: pieces => do
    match typeOf? (String.ofList name) with
    | some inner => do
      let inner ← inner
      return .type inner :: (← ofPieces typeOf? pieces)
    | none =>
      return .text (String.ofList ('\x7b' :: name ++ ['\x7d'])) :: (← ofPieces typeOf? pieces)

end TemplatePart

namespace UrlTemplate

/-- The type of a parameter's value; text where its schema has none. -/
def valueType (coerce : Bool) (parameter : Parameter) : Inspect TypeExpr := do
  return (← TypeExpr.ofItem coerce parameter.schema).getD .string

/-- The computation for a name in a path pattern that is a path parameter. -/
def pathValue? (table : ParameterTable) (name : String) : Option (Inspect TypeExpr) :=
  match Json.lookup name table with
  | some parameter =>
    if parameter.location = .path then some (valueType false parameter) else none
  | none => none

/-- The fields of a query. A parameter that may be empty also accepts `true`. -/
def queryFields : List Parameter → Inspect (List Member)
  | [] => return []
  | parameter :: rest => do
    let type ← valueType true parameter
    let type := TypeExpr.ofUnion
      (type :: if parameter.allowEmptyValue then [.literal (.boolean true)] else [])
    let fields ← queryFields rest
    return { name := parameter.name, type, isOptional := !parameter.required } :: fields

/-- The end of a URL that carries the query: it may be left out if no parameter is required. -/
def queryParts (parameters : List Parameter) : Inspect (List TemplatePart) := do
  match ← queryFields parameters with
  | [] => return []
  | fields =>
    let query := TypeExpr.named "URLSearchParamsString" [.object fields]
    if parameters.any (·.required) then return [.text "?", .type query]
    else return [.type (.ofUnion [.template [.text "?", .type query], .text ""])]

/-- The template of a path pattern and its query. -/
def path (pattern : String) (table : ParameterTable) : Inspect (List TemplatePart) := do
  let parts ← TemplatePart.ofPieces (pathValue? table) (PatternPiece.ofPattern pattern)
  let query ← queryParts (table.inLocation .query)
  return TemplatePart.merge (parts ++ query)

/-- A text without one slash at its end. -/
def dropSlash (text : List Char) : List Char :=
  match text.reverse with
  | '/' :: rest => rest.reverse
  | _ => text

/-- The values of a server variable: the listed ones, or the default if none is listed. -/
def variableType (serverVariable : ServerVariable) : TypeExpr :=
  match serverVariable.enum with
  | some (value :: values) => TypeExpr.ofUnion ((value :: values).map TypeExpr.text)
  | _ => TypeExpr.text serverVariable.default

/-- The pieces of a server URL with its variables replaced by their values. -/
def serverParts (server : Server) : List TemplatePart :=
  (PatternPiece.cutText [] (dropSlash server.url.toList)).map fun piece =>
    match piece with
    | .text text => .text (String.ofList text)
    | .braced name =>
      match Json.lookup (String.ofList name) server.placeholders with
      | some found => .type (variableType found)
      | none => .text (String.ofList ('\x7b' :: name ++ ['\x7d']))

/-- A base URL without blanks around it and without one slash at its end. -/
def baseText? (baseUrl : String) : Option String :=
  (Text.nonBlank? baseUrl).map fun text => String.ofList (dropSlash text.toList)

/-- What may stand before a path, form by form. -/
def forms (document : Document) (settings : Settings) : List (List TemplatePart) :=
  (settings.baseUrls.filterMap baseText?).map (fun text => [.text text])
    ++ (if settings.includeAbsoluteUrl then
        [[.type (.ofUnion [.text "http://", .text "https://"]), .type .string]] else [])
    ++ (if settings.includeServerUrls then
        document.description.servers.map fun server => TemplatePart.merge (serverParts server)
      else [])
    ++ (if settings.includeRelativeUrl then [[]] else [])

/-- The type of the URLs that a request for the path accepts. -/
def input (document : Document) (settings : Settings) (path : List TemplatePart) :
    Except Failure TypeExpr :=
  match forms document settings with
  | [] => .error (.noInputUrls (.template path) settings)
  | forms => .ok (.ofUnion (forms.map fun form => .template (TemplatePart.prefixed form path)))

end UrlTemplate
end ApiTypings
