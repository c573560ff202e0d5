/-
Text of the document never escapes its literal.

Each line of a comment keeps the lexer inside the comment, declarations are balanced because
their types are, and so is what the writer puts in between.  A whole file is balanced too,
which is to say that it begins and ends in code without an open bracket.
-/
import Mathlib
import ApiTypings.Proofs.BalancedTypes
import ApiTypings.Proofs.EmittedTypes

namespace ApiTypings

open Lexer OpenApi TypeExpr

/-! ### Comments -/

/-- Pieces of a line that keep the lexer inside a comment. -/
def CommentLine (line : List Piece) : Prop :=
  ∀ stack, ∃ mode : Mode, mode.region = .blockComment
    ∧ Run ⟨.blockComment, stack⟩ line ⟨mode, stack⟩

/-- Own text in a comment, where the lexer stands behind text of the document. -/
theorem fits_ownComment {mode : Mode} (hmode : mode.region = .blockComment) (stack : List Opener)
    {text : String} (hown : text ∈ ownTexts) {next : Mode}
    (hcomment : scanWhile (sameComment ⟨.blockComment, stack⟩) ⟨.blockComment, stack⟩ text.toList
      = some ⟨next, stack⟩)
    (hstar : scanWhile (sameComment ⟨.blockStar, stack⟩) ⟨.blockStar, stack⟩ text.toList
      = some ⟨next, stack⟩) : Fits ⟨mode, stack⟩ (.own text) ⟨next, stack⟩ := by
  cases mode with
  | blockComment => exact .own hown hcomment
  | blockStar => exact .own hown hstar
  | _ => cases hmode

/-- The beginnings of lines with a text of the document. -/
def lineFronts : List String := [" * ", " * # ", " * @summary ", " * @version ", " * @license "]

theorem commentLine_of_text {front : String} (hfront : front ∈ lineFronts) (text : String) :
    CommentLine [.own front, .document (escapeComment text)] := by
  intro stack
  obtain ⟨mode, hmode, hfits⟩ := fits_comment stack text
  have hown : ∀ front ∈ lineFronts, front ∈ ownTexts := by decide
  have hscan : scanWhile (sameComment ⟨.blockComment, stack⟩) ⟨.blockComment, stack⟩ front.toList
      = some ⟨.blockComment, stack⟩ := by
    fin_cases hfront <;> rfl
  exact ⟨mode, hmode, .cons (.own (hown front hfront) hscan) (.single hfits)⟩

theorem commentLine_star : CommentLine [.own " *"] :=
  fun _ => ⟨.blockStar, rfl, .single (.own (by decide) rfl)⟩

theorem commentLine_commentLinePieces (line : String) : CommentLine (commentLinePieces line) := by
  unfold commentLinePieces
  split
  · exact commentLine_star
  · exact commentLine_of_text (by decide) _

/-- **Lines that keep the lexer inside make up a comment that is balanced.** -/
theorem balanced_commentPieces {indent : String} (hindent : indent ∈ ["", "  "])
    {lines : List (List Piece)} (h : ∀ line ∈ lines, CommentLine line) :
    Balanced (commentPieces indent lines) := by
  intro stack
  have hcode : Fits ⟨.code, stack⟩ (.own indent) ⟨.code, stack⟩ := by
    fin_cases hindent <;> exact fits_neutral (by decide) stack
  have hcomment : Fits ⟨.blockComment, stack⟩ (.own indent) ⟨.blockComment, stack⟩ := by
    fin_cases hindent <;> exact .own (by decide) rfl
  have hlines : Run ⟨.blockComment, stack⟩
      (lines.flatMap fun line => .own indent :: (line ++ [.own "\n"])) ⟨.blockComment, stack⟩ := by
    -- a line may end in a star, and only its line break makes the next one safe
    refine .flatMap fun line hline => .cons hcomment ?_
    obtain ⟨mode, hmode, hrun⟩ := h line hline stack
    exact hrun.append (.single (fits_ownComment hmode stack (by decide) rfl rfl))
  refine Run.append (.cons hcode (.cons .opening (.cons (.own (by decide) rfl) hlines))) ?_
  exact .cons hcomment (.cons (.closing rfl) (.single (.own (by decide) rfl)))

theorem commentLine_tag {tag : DocTag} (h : Text.IsName tag.name) :
    ∀ line ∈ tag.linePieces, CommentLine line := by
  obtain ⟨name, text⟩ := tag
  cases text with
  | none =>
      refine List.forall_mem_singleton.mpr fun stack => ⟨.blockComment, rfl, ?_⟩
      exact .cons (.own (by decide) rfl) (.single (fits_commentName stack h))
  | some text =>
      refine List.forall_mem_cons.mpr ⟨fun stack => ?_, List.forall_mem_map.mpr fun line _ =>
        commentLine_commentLinePieces line⟩
      obtain ⟨mode, hmode, hfits⟩ := fits_comment stack _
      exact ⟨mode, hmode, .cons (.own (by decide) rfl) (.cons (fits_commentName stack h)
        (.cons (.own (by decide) rfl) (.single hfits)))⟩

theorem commentLine_docs {docs : Docs} (h : ∀ name ∈ docs.tagNames, Text.IsName name) :
    ∀ line ∈ docs.linePieces, CommentLine line := by
  refine List.forall_mem_append.mpr ⟨?_, ?_⟩
  · split
    · exact List.forall_mem_nil _
    · refine List.forall_mem_append.mpr ⟨List.forall_mem_map.mpr fun line _ =>
        commentLine_commentLinePieces line, ?_⟩
      split
      · exact List.forall_mem_nil _
      · exact List.forall_mem_singleton.mpr commentLine_star
  · exact List.forall_mem_flatMap.mpr fun tag htag =>
      commentLine_tag (h tag.name (List.mem_map_of_mem htag))

theorem balanced_docPieces {indent : String} (hindent : indent ∈ ["", "  "]) {docs : Option Docs}
    (h : ∀ name ∈ docs.toList.flatMap Docs.tagNames, Text.IsName name) :
    Balanced (docPieces indent docs) := by
  cases docs with
  | none => exact .nil
  | some docs =>
      exact balanced_commentPieces hindent (commentLine_docs (by simpa using h))

/-! ### Declarations -/

variable {P : String → Prop}

theorem balanced_boundPieces {front : String} (hfront : front ∈ neutralTexts)
    {type : Option TypeExpr} (h : ∀ inner ∈ type, Built P inner) :
    Balanced (boundPieces front type) := by
  cases type with
  | none => exact .nil
  | some inner => exact .own hfront (balanced_pieces (h inner rfl).writable)

theorem balanced_typeParameter {parameter : TypeParameter} (hname : Text.IsName parameter.name)
    (htypes : ∀ type ∈ parameter.constraint.toList ++ parameter.default.toList, Built P type) :
    Balanced parameter.pieces := by
  obtain ⟨hconstraint, hdefault⟩ := List.forall_mem_append.mp htypes
  exact .name hname (.append
    (balanced_boundPieces (by decide) fun type htype =>
      hconstraint type (Option.mem_toList.mpr htype))
    (balanced_boundPieces (by decide) fun type htype =>
      hdefault type (Option.mem_toList.mpr htype)))

theorem balanced_argument {argument : Argument} (hname : Text.IsName argument.name)
    (htype : Built P argument.type) : Balanced argument.pieces := by
  have hrest : Balanced (.own ": " :: argument.type.pieces) :=
    .own (by decide) (balanced_pieces htype.writable)
  refine .name hname (.append ?_ hrest)
  split
  · exact .own (by decide) .nil
  · exact .nil

/-- Items between commas. -/
theorem balanced_commas {rows : List (List Piece)} (h : ∀ row ∈ rows, Balanced row) :
    Balanced ([.own ", "].intercalate rows) :=
  .intercalate (.own (by decide) .nil) h

theorem balanced_signature {indent : String} (hindent : indent ∈ ["", "  "])
    {signature : Signature} (h : signature.Built P) : Balanced (signature.pieces indent) := by
  obtain ⟨htypes, hnames⟩ := h
  simp only [Signature.types, List.forall_mem_append, List.forall_mem_flatMap, List.forall_mem_map,
    List.forall_mem_singleton] at htypes
  simp only [Signature.names, List.forall_mem_cons, List.forall_mem_append, List.forall_mem_map]
    at hnames
  have hparameters : ∀ row ∈ signature.typeParameters.map TypeParameter.pieces, Balanced row :=
    List.forall_mem_map.mpr fun parameter hparameter =>
      balanced_typeParameter (hnames.2.1.1 parameter hparameter)
        (List.forall_mem_append.mpr (htypes.1.1 parameter hparameter))
  have harguments : ∀ row ∈ signature.arguments.map Argument.pieces, Balanced row :=
    List.forall_mem_map.mpr fun argument hargument =>
      balanced_argument (hnames.2.1.2 argument hargument) (htypes.1.2 argument hargument)
  have hend : Balanced [.own ";\n"] := .own (by decide) .nil
  have hlist : Balanced (.own "(" :: ([.own ", "].intercalate
      (signature.arguments.map Argument.pieces)
        ++ .own "): " :: (signature.returns.pieces ++ [.own ";\n"]))) :=
    .enclosed (by decide)
      (balanced_commas harguments) ((balanced_pieces htypes.2.writable).append hend)
  have hindented : indent ∈ neutralTexts := by
    fin_cases hindent <;> decide
  refine (balanced_docPieces hindent hnames.2.2).append (.own hindented
    (.own (by decide) (.name hnames.1 (.append ?_ hlist))))
  split
  · exact .nil
  · refine .own (by decide) ((balanced_commas hparameters).append ?_)
    exact .own (by decide) .nil

theorem balanced_alias {declared : Alias} (h : declared.Built P) : Balanced declared.pieces := by
  obtain ⟨hname, htags⟩ := List.forall_mem_cons.mp h.names
  have hend : Balanced [.own ";\n"] := .own (by decide) .nil
  refine (balanced_docPieces (by simp) htags).append (.own (by decide) (.name hname
    (.own (by decide) ((balanced_pieces h.type.writable).append hend))))

theorem balanced_import {declaration : Import} (h : ∀ name ∈ declaration.names, Text.IsName name) :
    Balanced declaration.pieces := by
  have hnames : ∀ row ∈ declaration.names.map fun name => [Piece.document name], Balanced row :=
    List.forall_mem_map.mpr fun name hname => .name (h name hname) .nil
  exact .enclosed (by decide)
    (balanced_commas hnames) ((Json.balanced_quotePieces _).append (.own (by decide) .nil))

/-! ### The header -/

namespace Header

theorem commentLine_tagPieces {front : String} (hfront : front ∈ lineFronts)
    (text : Option String) : ∀ line ∈ tagPieces front text, CommentLine line := by
  unfold tagPieces
  split
  · exact List.forall_mem_singleton.mpr (commentLine_of_text hfront _)
  · exact nofun

theorem commentLine_authorPieces (contact : Contact) :
    ∀ line ∈ authorPieces contact, CommentLine line := by
  unfold authorPieces
  split
  · exact List.forall_mem_nil _
  · refine List.forall_mem_singleton.mpr fun stack => ?_
    obtain ⟨mode, hmode, hname⟩ := fits_comment stack _
    split
    · obtain ⟨last, hlast, hemail⟩ := fits_comment stack _
      refine ⟨.blockComment, rfl, .cons (.own (by decide) rfl) (.cons hname ?_)⟩
      refine .cons (fits_ownComment hmode stack (by decide) rfl rfl) (.cons hemail ?_)
      exact .single (fits_ownComment hlast stack (by decide) rfl rfl)
    · exact ⟨mode, hmode, .cons (.own (by decide) rfl) (.single hname)⟩

theorem commentLine_linePieces (info : Info) : ∀ line ∈ linePieces info, CommentLine line := by
  unfold linePieces
  simp only [List.forall_mem_append, List.forall_mem_cons]
  refine ⟨⟨⟨⟨⟨⟨⟨?_, nofun⟩, ?_⟩, ?_⟩, commentLine_star, ?_, nofun⟩, ?_⟩, ?_⟩, ?_, nofun⟩
  · exact commentLine_of_text (by decide) _
  · split
    · exact List.forall_mem_cons.mpr ⟨commentLine_star, List.forall_mem_map.mpr fun line _ =>
        commentLine_commentLinePieces line⟩
    · exact nofun
  · exact commentLine_tagPieces (by decide) _
  · exact commentLine_of_text (by decide) _
  · exact commentLine_tagPieces (by decide) _
  · split
    · exact commentLine_authorPieces _
    · exact nofun
  · exact fun stack => ⟨.blockComment, rfl, .single (.own (by decide) rfl)⟩

theorem balanced_pieces (info : Info) (generatedAt : Timestamp) :
    Balanced (pieces info generatedAt) := by
  intro stack
  have hline : Fits ⟨.code, stack⟩ (.own "\n") ⟨.code, stack⟩ := fits_neutral (by decide) stack
  have hcomment : Balanced (commentPieces "" (linePieces info)) :=
    balanced_commentPieces (by simp) (commentLine_linePieces info)
  refine .cons (.own (by decide) rfl) (.cons (fits_timestamp stack generatedAt) ?_)
  exact .cons (.own (by decide) rfl) (.cons hline ((hcomment stack).append (.single hline)))

end Header

/-! ### Files -/

theorem isName_of_mem_imports {root : String} {settings : Settings} :
    ∀ declaration ∈ Generated.imports root settings,
      ∀ name ∈ declaration.names, Text.IsName name := by
  have hall : ∀ name ∈ ["JSONString", "TypedHeadersInit", "URLSearchParamsString"],
      Text.isIdentifier name = true := by decide
  simp only [Generated.imports, Generated.importOf, List.forall_mem_cons]
  exact ⟨⟨Text.isName_of_isIdentifier (hall _ (by simp)), nofun⟩,
    ⟨Text.isName_of_isIdentifier (hall _ (by simp)), nofun⟩,
    ⟨Text.isName_of_isIdentifier (hall _ (by simp)), nofun⟩, nofun⟩

theorem SourceFile.balanced_pieces {header : List Piece} {file : SourceFile}
    (hheader : Balanced header)
    (himports : ∀ declaration ∈ file.imports, ∀ name ∈ declaration.names, Text.IsName name)
    (hfunctions : ∀ signature ∈ file.globalScope.functions, signature.Built P)
    (haliases : ∀ declared ∈ file.moduleScope.aliases, declared.Built P) :
    Balanced (file.pieces header) := by
  have hline : Balanced [.own "\n"] := .own (by decide) .nil
  refine .append (.append (.append (.append hheader ?_) ?_) ?_) ?_
  · exact .flatMap fun declaration hdeclaration =>
      balanced_import (himports declaration hdeclaration)
  · split
    · exact .nil
    · exact hline
  · split
    · exact .nil
    · refine .enclosed (by decide)
        (.intercalate hline (List.forall_mem_map.mpr fun signature hsignature => ?_)) .nil
      exact balanced_signature (by simp) (hfunctions signature hsignature)
  · exact .flatMap fun declared hdeclared =>
      .own (by decide) (balanced_alias (haliases declared hdeclared))

namespace Generated

/-- **Text of the document never escapes its literal.**  A generated file is made of pieces, each of
which fits where it stands.  The lexer reads it from the first character to the last, where
it is in code again without an open bracket, and each documentation comment is closed by
the end that the writer gives it. -/
theorem confined {tree : Json} {document : Document} (htree : tree.Distinct)
    (hdocument : Document.ofJson tree = .ok document) {settings : Settings} {importRoot : String}
    {generatedAt : Timestamp} {generated : Generated}
    (h : ofDocument document settings importRoot generatedAt = .ok generated) :
    let pieces := generated.file.pieces (Header.pieces document.description.info generatedAt)
    written pieces = generated.file.render.toList
      ∧ scan start generated.file.render.toList = some start
      ∧ Run start pieces start ∧ CommentsClosed pieces := by
  intro pieces
  obtain ⟨functions, aliases, hfunctions, haliases, hfile⟩ :=
    built_of_ofDocument htree hdocument h
  have hheader : generated.file.header = Header.render document.description.info generatedAt := by
    rw [hfile]
  have himports : generated.file.imports = imports importRoot settings := by rw [hfile]
  have hwritten : written pieces = generated.file.render.toList :=
    SourceFile.written_pieces (hheader ▸ Header.written_pieces _ _)
  have hbalanced : Balanced pieces :=
    SourceFile.balanced_pieces (Header.balanced_pieces _ _) (himports ▸ isName_of_mem_imports)
      (by rw [hfile]; exact hfunctions) (by rw [hfile]; exact haliases)
  have hrun : Run start pieces start := hbalanced []
  exact ⟨hwritten, hwritten ▸ hrun.scan, hrun, hrun.commentsClosed⟩

/-- A document that tries to leave a comment, a template and a string. -/
theorem confined_hostile :
    let tree : Json := .object [
      ("info", .object [("title", .string "*/ leave(); /*"), ("version", .string "*")]),
      ("paths", .object [("/pets/\x60$\x7b", .object [("get", .object [
        ("summary", .string "**/")])])]),
      ("components", .object [("schemas", .object [("pet", .object [
        ("enum", .array [.string "\"; leave();\\"])])])])]
    ∃ document generated, (tree.Distinct ∧ Document.ofJson tree = .ok document
        ∧ ofDocument document .relative "fetchtype" ⟨0, 0⟩ = .ok generated)
      ∧ let pieces := generated.file.pieces (Header.pieces document.description.info ⟨0, 0⟩)
        written pieces = generated.file.render.toList
          ∧ scan start generated.file.render.toList = some start
          ∧ Run start pieces start ∧ CommentsClosed pieces := by
  intro tree
  have htree : tree.Distinct := by simp [tree, Json.Distinct]
  obtain ⟨document, generated, hdocument, h⟩ : ∃ document generated,
      Document.ofJson tree = .ok document
        ∧ ofDocument document .relative "fetchtype" ⟨0, 0⟩ = .ok generated :=
    ⟨_, _, rfl, rfl⟩
  exact ⟨document, generated, ⟨htree, hdocument, h⟩, confined htree hdocument h⟩

end Generated
end ApiTypings
