/-
The text of a file, piece by piece.

Each printer is written once more as a list of pieces, which says of every bit of text
whether the writer puts it in by itself or takes it from the document.  Read in a row, the
pieces are the text that the printer gives.

What a document has no say in may count as text of the document, as the words of the
language do: it is held to the same rules.
-/
import Mathlib
import ApiTypings.Proofs.Lexer
import ApiTypings.SourceFile

namespace ApiTypings

open Lexer (Piece written)
open Lexer.Piece (own document opening closing)

/-! ### Literals -/

namespace Json

/-- The pieces of a string literal. -/
def quotePieces (text : String) : List Piece :=
  [own "\"", document (String.ofList (text.toList.flatMap escapeChar)), own "\""]

@[simp] theorem written_quotePieces (text : String) :
    written (quotePieces text) = (quote text).toList := by
  simp [quotePieces, quote]

mutual
/-- The pieces of a JSON value. -/
def pieces : Json → List Piece
  | null => [document "null"]
  | boolean value => [document (if value then "true" else "false")]
  | number value => [document value.render]
  | string text => quotePieces text
  | array items => document "[" :: (itemPieces items ++ [document "]"])
  | object fields => document "\x7b" :: (fieldPieces fields ++ [document "\x7d"])

def itemPieces : List Json → List Piece
  | [] => []
  | [item] => pieces item
  | item :: rest => pieces item ++ document "," :: itemPieces rest

def fieldPieces : List (String × Json) → List Piece
  | [] => []
  | [(key, value)] => quotePieces key ++ document ":" :: pieces value
  | (key, value) :: rest =>
    quotePieces key ++ document ":" :: (pieces value ++ document "," :: fieldPieces rest)
end

mutual
@[simp] theorem written_pieces : ∀ value : Json, written (pieces value) = value.render.toList
  | null | boolean _ | number _ => by simp [pieces, render]
  | string text => by simp [pieces, render]
  | array items => by simp [pieces, render, written_itemPieces items]
  | object fields => by simp [pieces, render, written_fieldPieces fields]

theorem written_itemPieces : ∀ items : List Json,
    written (itemPieces items) = (renderItems items).toList
  | [] => rfl
  | [item] => by rw [itemPieces, renderItems, written_pieces item]
  | item :: other :: rest => by
      rw [itemPieces, renderItems] <;>
        simp [written_pieces item, written_itemPieces (other :: rest)]

theorem written_fieldPieces : ∀ fields : List (String × Json),
    written (fieldPieces fields) = (renderFields fields).toList
  | [] => rfl
  | [(key, value)] => by simp [fieldPieces, renderFields, written_pieces value]
  | (key, value) :: other :: rest => by
      rw [fieldPieces, renderFields] <;>
        simp [written_pieces value, written_fieldPieces (other :: rest)]
end

end Json

/-! ### Types -/

/-- The pieces of a member name. -/
def keyPieces (name : String) : List Piece :=
  if Text.isIdentifier name then [document name] else Json.quotePieces name

@[simp] theorem written_keyPieces (name : String) :
    written (keyPieces name) = (memberKey name).toList := by
  unfold keyPieces memberKey
  split <;> simp

namespace TypeExpr

/-- The pieces of a type with parentheses around them, where it binds looser than `least`. -/
def groupedPieces (least : Binding) (type : TypeExpr) (inner : List Piece) : List Piece :=
  if type.binding.rank < least.rank then own "(" :: (inner ++ [own ")"]) else inner

theorem written_groupedPieces (least : Binding) {type : TypeExpr} {inner : List Piece}
    (h : written inner = type.render.toList) :
    written (groupedPieces least type inner) = (parenthesize least type type.render).toList := by
  unfold groupedPieces parenthesize
  split <;> simp [h]

mutual
/-- The pieces of a type. -/
def pieces : TypeExpr → List Piece
  | keyword k => [document k.render]
  | literal value => value.pieces
  | named name [] => [document name]
  | named name (arg :: args) =>
    document name :: own "<" :: (pieces arg ++ argumentPieces args ++ [own ">"])
  | template parts => own "\x60" :: (partPieces parts ++ [own "\x60"])
  | array item => groupedPieces .tight item (pieces item) ++ [own "[]"]
  | object [] => [own "\x7b\x7d"]
  | object (member :: members) =>
    own "\x7b " :: (memberPieces member ++ furtherPieces members ++ [own " \x7d"])
  | union [] => []
  | union (type :: types) =>
    groupedPieces .intersection type (pieces type) ++ operandPieces " | " .intersection types
  | intersection [] => []
  | intersection (type :: types) =>
    groupedPieces .tight type (pieces type) ++ operandPieces " & " .tight types

def argumentPieces : List TypeExpr → List Piece
  | [] => []
  | arg :: args => own ", " :: (pieces arg ++ argumentPieces args)

def operandPieces (separator : String) (least : Binding) : List TypeExpr → List Piece
  | [] => []
  | type :: types =>
    own separator :: (groupedPieces least type (pieces type) ++ operandPieces separator least types)

def partPieces : List TemplatePart → List Piece
  | [] => []
  | .text text :: parts => document (String.ofList (escapeTemplate text.toList)) :: partPieces parts
  | .type type :: parts => own "$\x7b" :: (pieces type ++ own "\x7d" :: partPieces parts)

def furtherPieces : List Member → List Piece
  | [] => []
  | member :: members => own "; " :: (memberPieces member ++ furtherPieces members)

def memberPieces : Member → List Piece
  | ⟨name, type, isOptional, isReadonly, isMethod⟩ =>
    (if isReadonly then [own "readonly "] else []) ++ keyPieces name
      ++ (if isOptional then [own "?"] else []) ++ (if isMethod then [own "()"] else [])
      ++ own ": " :: pieces type
end

mutual
@[simp] theorem written_pieces : ∀ type : TypeExpr, written (pieces type) = type.render.toList
  | keyword _ | literal _ | named _ [] | object [] | union [] | intersection [] => by
      simp [pieces, render]
  | named name (arg :: args) => by
      simp [pieces, render, written_pieces arg, written_argumentPieces args]
  | template parts => by simp [pieces, render, written_partPieces parts]
  | array item => by simp [pieces, render, written_groupedPieces .tight (written_pieces item)]
  | object (member :: members) => by
      simp [pieces, render, written_memberPieces member, written_furtherPieces members]
  | union (type :: types) => by
      simp [pieces, render, written_groupedPieces .intersection (written_pieces type),
        written_operandPieces " | " .intersection types]
  | intersection (type :: types) => by
      simp [pieces, render, written_groupedPieces .tight (written_pieces type),
        written_operandPieces " & " .tight types]

theorem written_argumentPieces : ∀ args : List TypeExpr,
    written (argumentPieces args) = (renderArguments args).toList
  | [] => rfl
  | arg :: args => by
      simp [argumentPieces, renderArguments, written_pieces arg, written_argumentPieces args]

theorem written_operandPieces (separator : String) (least : Binding) : ∀ types : List TypeExpr,
    written (operandPieces separator least types) = (renderOperands separator least types).toList
  | [] => rfl
  | type :: types => by
      simp [operandPieces, renderOperands, written_groupedPieces least (written_pieces type),
        written_operandPieces separator least types]

theorem written_partPieces : ∀ parts : List TemplatePart,
    written (partPieces parts) = (renderParts parts).toList
  | [] => rfl
  | .text text :: parts => by simp [partPieces, renderParts, written_partPieces parts]
  | .type type :: parts => by
      simp [partPieces, renderParts, written_pieces type, written_partPieces parts]

theorem written_furtherPieces : ∀ members : List Member,
    written (furtherPieces members) = (renderMembers members).toList
  | [] => rfl
  | member :: members => by
      simp [furtherPieces, renderMembers, written_memberPieces member,
        written_furtherPieces members]

theorem written_memberPieces : ∀ member : Member,
    written (memberPieces member) = (renderMember member).toList
  | ⟨name, type, isOptional, isReadonly, isMethod⟩ => by
      cases isOptional <;> cases isReadonly <;> cases isMethod <;>
        simp [memberPieces, renderMember, written_pieces type]
end

end TypeExpr

/-! ### Comments -/

/-- The pieces of a comment, where `indent` stands before each of its lines. -/
def commentPieces (indent : String) (lines : List (List Piece)) : List Piece :=
  own indent :: opening :: own "\n"
    :: (lines.flatMap fun line => own indent :: (line ++ [own "\n"]))
    ++ [own indent, closing, own "\n"]

theorem written_commentPieces (indent : String) {lines : List (List Piece)} {texts : List String}
    (h : lines.map written = texts.map String.toList) :
    written (commentPieces indent lines)
      = (unlines (("/**" :: (texts ++ [" */"])).map (indent ++ ·))).toList := by
  have hlines : (lines.flatMap fun line => indent.toList ++ (written line ++ ['\n']))
      = texts.flatMap fun text => indent.toList ++ (text.toList ++ ['\n']) := by
    rw [← List.flatMap_map written fun line => indent.toList ++ (line ++ ['\n']), h,
      List.flatMap_map]
  simp [commentPieces, unlines, hlines, List.flatMap_map]

/-- The pieces of a line inside a comment. -/
def commentLinePieces (line : String) : List Piece :=
  if Text.trim line = "" then [own " *"]
  else [own " * ", document (escapeComment (Text.trimEnd line))]

@[simp] theorem written_commentLinePieces (line : String) :
    written (commentLinePieces line) = (commentLine line).toList := by
  unfold commentLinePieces commentLine
  split <;> simp

namespace DocTag

/-- The lines of a tag in pieces. -/
def linePieces (tag : DocTag) : List (List Piece) :=
  match tag.text with
  | none => [[own " * @", document tag.name]]
  | some text =>
    let (first, rest) := match Text.lines text with
      | [] => ("", [])
      | first :: rest => (first, rest)
    [own " * @", document tag.name, own " ", document (escapeComment first)]
      :: rest.map commentLinePieces

@[simp] theorem map_written_linePieces (tag : DocTag) :
    tag.linePieces.map written = tag.lines.map String.toList := by
  obtain ⟨name, text⟩ := tag
  cases text with
  | none => simp [linePieces, lines]
  | some text => cases htext : Text.lines text <;> simp [linePieces, lines, htext]

end DocTag

namespace Docs

/-- The lines of a documentation comment in pieces. -/
def linePieces (docs : Docs) : List (List Piece) :=
  (match docs.description with
    | none => []
    | some description =>
      (Text.lines description).map commentLinePieces
        ++ (if docs.tags.isEmpty then [] else [[own " *"]]))
    ++ docs.tags.flatMap DocTag.linePieces

/-- The lines of a documentation comment between its ends. -/
def innerLines (docs : Docs) : List String :=
  (match docs.description with
    | none => []
    | some description =>
      (Text.lines description).map commentLine ++ (if docs.tags.isEmpty then [] else [" *"]))
    ++ docs.tags.flatMap DocTag.lines

theorem lines_eq (docs : Docs) : docs.lines = "/**" :: (docs.innerLines ++ [" */"]) := by
  unfold lines innerLines
  cases docs.description <;> simp

theorem map_written_linePieces (docs : Docs) :
    docs.linePieces.map written = docs.innerLines.map String.toList := by
  unfold linePieces innerLines
  have htags : docs.tags.flatMap (fun tag => tag.linePieces.map written)
      = docs.tags.flatMap fun tag => tag.lines.map String.toList := by
    simp
  rw [List.map_append, List.map_append, List.map_flatMap, List.map_flatMap, htags]
  congr 1
  split
  · rfl
  · split <;> simp

end Docs

/-- The pieces of the documentation of a declaration. -/
def docPieces (indent : String) : Option Docs → List Piece
  | none => []
  | some docs => commentPieces indent docs.linePieces

@[simp] theorem written_docPieces (indent : String) (docs : Option Docs) :
    written (docPieces indent docs) = (renderDocs indent docs).toList := by
  cases docs with
  | none => rfl
  | some docs =>
      rw [docPieces, renderDocs, written_commentPieces indent docs.map_written_linePieces,
        docs.lines_eq]

/-! ### Declarations -/

/-- The pieces of a type behind a word, where there is one. -/
def boundPieces (front : String) : Option TypeExpr → List Piece
  | none => []
  | some type => own front :: type.pieces

namespace TypeParameter

def pieces (parameter : TypeParameter) : List Piece :=
  document parameter.name
    :: (boundPieces " extends " parameter.constraint ++ boundPieces " = " parameter.default)

@[simp] theorem written_pieces (parameter : TypeParameter) :
    written parameter.pieces = parameter.render.toList := by
  obtain ⟨name, constraint, default⟩ := parameter
  cases constraint <;> cases default <;> simp [pieces, render, boundPieces]

end TypeParameter

namespace Argument

def pieces (argument : Argument) : List Piece :=
  document argument.name
    :: ((if argument.isOptional then [own "?"] else []) ++ own ": " :: argument.type.pieces)

@[simp] theorem written_pieces (argument : Argument) :
    written argument.pieces = argument.render.toList := by
  unfold pieces render
  split <;> simp

end Argument

namespace Signature

def pieces (indent : String) (signature : Signature) : List Piece :=
  docPieces indent signature.docs
    ++ own indent :: own "function " :: document signature.name
      :: ((if signature.typeParameters.isEmpty then []
        else own "<" :: ([own ", "].intercalate (signature.typeParameters.map TypeParameter.pieces)
          ++ [own ">"]))
    ++ own "(" :: ([own ", "].intercalate (signature.arguments.map Argument.pieces)
    ++ own "): " :: (signature.returns.pieces ++ [own ";\n"])))

@[simp] theorem written_pieces (indent : String) (signature : Signature) :
    written (signature.pieces indent) = (signature.render indent).toList := by
  unfold pieces render
  split <;> simp [Function.comp_def]

end Signature

namespace Alias

def pieces (declared : Alias) : List Piece :=
  docPieces "" declared.docs
    ++ own "export type " :: document declared.name :: own " = "
      :: (declared.type.pieces ++ [own ";\n"])

@[simp] theorem written_pieces (declared : Alias) :
    written declared.pieces = declared.render.toList := by
  simp [pieces, render]

end Alias

namespace Import

def pieces (declaration : Import) : List Piece :=
  own "import type \x7b "
    :: ([own ", "].intercalate (declaration.names.map fun name => [document name])
      ++ own " \x7d from " :: (Json.quotePieces declaration.module ++ [own ";\n"]))

@[simp] theorem written_pieces (declaration : Import) :
    written declaration.pieces = declaration.render.toList := by
  have hrender : declaration.render = "import type \x7b " ++ ", ".intercalate declaration.names
      ++ " \x7d from " ++ Json.quote declaration.module ++ ";\n" := by
    delta render
    rfl
  simp [pieces, hrender, Function.comp_def]

end Import

/-! ### Files -/

namespace Header

/-- The pieces of a tag in the header. -/
def tagPieces (front : String) (text : Option String) : List (List Piece) :=
  match text.bind Text.nonBlank? with
  | some text => [[own front, document (escapeComment text)]]
  | none => []

theorem map_written_tagPieces {front tag : String} (hfront : front = " * @" ++ tag ++ " ")
    (text : Option String) :
    (tagPieces front text).map written = (tagLine tag text).map String.toList := by
  unfold tagPieces tagLine
  cases text.bind Text.nonBlank? <;> simp [hfront]

/-- The pieces of the author. -/
def authorPieces (contact : OpenApi.Contact) : List (List Piece) :=
  match contact.name.bind Text.nonBlank? with
  | none => []
  | some name =>
    [own " * @author " :: document (escapeComment name)
      :: (match contact.email.bind Text.nonBlank? with
        | some email => [own " <", document (escapeComment email), own ">"]
        | none => [])]

theorem map_written_authorPieces (contact : OpenApi.Contact) :
    (authorPieces contact).map written = (authorLine contact).map String.toList := by
  unfold authorPieces authorLine
  cases contact.name.bind Text.nonBlank? with
  | none => rfl
  | some name => cases contact.email.bind Text.nonBlank? <;> simp

/-- The lines of the header in pieces. -/
def linePieces (info : OpenApi.Info) : List (List Piece) :=
  [[own " * # ", document (escapeComment (Text.trim info.title))]]
    ++ (match info.description.bind Text.nonBlank? with
      | some description => [own " *"] :: (Text.lines description).map commentLinePieces
      | none => [])
    ++ tagPieces " * @summary " info.summary
    ++ [[own " *"], [own " * @version ", document (escapeComment (Text.trim info.version))]]
    ++ tagPieces " * @license " (info.license.bind (·.name))
    ++ (match info.contact with
      | some contact => authorPieces contact
      | none => [])
    ++ [[own " * @module"]]

/-- The lines of the header between its ends. -/
def innerLines (info : OpenApi.Info) : List String :=
  [" * # " ++ escapeComment (Text.trim info.title)]
    ++ (match info.description.bind Text.nonBlank? with
      | some description => " *" :: (Text.lines description).map commentLine
      | none => [])
    ++ tagLine "summary" info.summary
    ++ [" *", " * @version " ++ escapeComment (Text.trim info.version)]
    ++ tagLine "license" (info.license.bind (·.name))
    ++ (match info.contact with
      | some contact => authorLine contact
      | none => [])
    ++ [" * @module"]

theorem map_written_linePieces (info : OpenApi.Info) :
    (linePieces info).map written = (innerLines info).map String.toList := by
  have hsummary : (tagPieces " * @summary " info.summary).map written
      = (tagLine "summary" info.summary).map String.toList := map_written_tagPieces (by decide) _
  have hlicense : (tagPieces " * @license " (info.license.bind (·.name))).map written
      = (tagLine "license" (info.license.bind (·.name))).map String.toList :=
    map_written_tagPieces (by decide) _
  unfold linePieces innerLines
  simp only [List.map_append, hsummary, hlicense]
  cases info.description.bind Text.nonBlank? <;> cases info.contact <;>
    simp [map_written_authorPieces]

/-- The pieces of the header. -/
def pieces (info : OpenApi.Info) (generatedAt : Timestamp) : List Piece :=
  own "// This file was automatically generated by fetchtype at " :: document generatedAt.render
    :: own "\n" :: own "\n" :: (commentPieces "" (linePieces info) ++ [own "\n"])

theorem render_eq (info : OpenApi.Info) (generatedAt : Timestamp) :
    render info generatedAt
      = unlines (("// This file was automatically generated by fetchtype at " ++ generatedAt.render)
        :: "" :: ("/**" :: (innerLines info ++ [" */"]) ++ [""])) := by
  unfold render innerLines
  cases info.description.bind Text.nonBlank? <;> cases info.contact <;>
    simp only [List.cons_append, List.append_assoc, List.nil_append]

theorem written_pieces (info : OpenApi.Info) (generatedAt : Timestamp) :
    written (pieces info generatedAt) = (render info generatedAt).toList := by
  have hcomment := written_commentPieces "" (map_written_linePieces info)
  simp only [String.empty_append, List.map_id'] at hcomment
  rw [render_eq, unlines, List.map_cons, List.map_cons, List.map_append, String.join_cons,
    String.join_cons, String.join_append]
  simp [pieces, hcomment, unlines]

end Header

namespace SourceFile

/-- The pieces of a file whose header is given in pieces. -/
def pieces (header : List Piece) (file : SourceFile) : List Piece :=
  header ++ file.imports.flatMap Import.pieces
    ++ (if file.imports.isEmpty then [] else [own "\n"])
    ++ (if file.globalScope.functions.isEmpty then []
      else own "declare global \x7b\n"
        :: ([own "\n"].intercalate (file.globalScope.functions.map (Signature.pieces "  "))
          ++ [own "\x7d\n"]))
    ++ file.moduleScope.aliases.flatMap fun declared => own "\n" :: declared.pieces

/-- **The pieces of a file make up its text.** -/
theorem written_pieces {header : List Piece} {file : SourceFile}
    (h : written header = file.header.toList) :
    written (file.pieces header) = file.render.toList := by
  unfold pieces render
  split <;> split <;> simp [h, Function.comp_def, List.flatMap_map]

end SourceFile
end ApiTypings
