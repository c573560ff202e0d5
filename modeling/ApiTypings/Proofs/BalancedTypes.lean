/-
Literals and types leave code as they find it.

`Balanced` says of pieces that they begin and end in code, whatever brackets are open there.
JSON values and types are balanced by induction: what the writer puts around the parts closes
what it opens, and the text between belongs to a string or a template and stays there.
-/
import Mathlib
import ApiTypings.Proofs.BuiltTypes
import ApiTypings.Proofs.Escaping
import ApiTypings.Proofs.Pieces

namespace ApiTypings

open Lexer TypeExpr

namespace Lexer

theorem Run.flatMap {α : Type} {state : State} {items : List α} {pieces : α → List Piece}
    (h : ∀ item ∈ items, Run state (pieces item) state) :
    Run state (items.flatMap pieces) state := by
  induction items with
  | nil => exact .nil
  | cons item items ih =>
      obtain ⟨hitem, hitems⟩ := List.forall_mem_cons.mp h
      exact hitem.append (ih hitems)

/-- The own texts that open and close nothing. -/
def neutralTexts : List String := [
  "<", ">", ", ", "[]", "\x7b\x7d", " | ", " & ", "; ", "readonly ", "?", "()", ": ",
  "", "  ", "\n", "function ", ";\n", " extends ", " = ", "export type "]

theorem fits_neutral {text : String} (h : text ∈ neutralTexts) (stack : List Opener) :
    Fits ⟨.code, stack⟩ (.own text) ⟨.code, stack⟩ := by
  have hown : ∀ text ∈ neutralTexts, text ∈ ownTexts := by decide
  refine .own (hown text h) ?_
  fin_cases h <;> rfl

/-- The own texts that open a bracket, with the ones that close it. -/
def bracketTexts : List (String × String) := [
  ("(", ")"), ("(", "): "), ("\x7b ", " \x7d"), ("import type \x7b ", " \x7d from "),
  ("declare global \x7b\n", "\x7d\n")]

theorem exists_opener {front back : String} (h : (front, back) ∈ bracketTexts)
    (stack : List Opener) : ∃ opener,
      Fits ⟨.code, stack⟩ (.own front) ⟨.code, opener :: stack⟩
        ∧ Fits ⟨.code, opener :: stack⟩ (.own back) ⟨.code, stack⟩ := by
  have hown : ∀ pair ∈ bracketTexts, pair.1 ∈ ownTexts ∧ pair.2 ∈ ownTexts := by decide
  obtain ⟨hfront, hback⟩ := hown _ h
  fin_cases h
  all_goals first
    | exact ⟨.round, .own hfront rfl, .own hback rfl⟩
    | exact ⟨.curly, .own hfront rfl, .own hback rfl⟩

/-- Pieces that leave code as they find it. -/
def Balanced (pieces : List Piece) : Prop :=
  ∀ stack, Run ⟨.code, stack⟩ pieces ⟨.code, stack⟩

namespace Balanced

variable {first second rest inner : List Piece}

theorem nil : Balanced [] := fun _ => .nil

theorem append (hfirst : Balanced first) (hsecond : Balanced second) : Balanced (first ++ second) :=
  fun stack => (hfirst stack).append (hsecond stack)

/-- A name, and what follows it. -/
theorem name {text : String} (h : Text.IsName text) (hrest : Balanced rest) :
    Balanced (.document text :: rest) :=
  fun stack => .cons (fits_name stack h) (hrest stack)

/-- Own text that opens nothing, and what follows it. -/
theorem own {text : String} (h : text ∈ neutralTexts) (hrest : Balanced rest) :
    Balanced (.own text :: rest) :=
  fun stack => .cons (fits_neutral h stack) (hrest stack)

/-- Own text that opens a bracket, what stands inside, and own text that closes the bracket. -/
theorem enclosed {front back : String} (h : (front, back) ∈ bracketTexts) (hinner : Balanced inner)
    (hrest : Balanced rest) : Balanced (.own front :: (inner ++ .own back :: rest)) := by
  intro stack
  obtain ⟨opener, hfront, hback⟩ := exists_opener h stack
  exact .cons hfront ((hinner _).append (.cons hback (hrest stack)))

theorem flatMap {α : Type} {items : List α} {pieces : α → List Piece}
    (h : ∀ item ∈ items, Balanced (pieces item)) : Balanced (items.flatMap pieces) :=
  fun stack => .flatMap fun item hitem => h item hitem stack

theorem intercalate {separator : List Piece} {rows : List (List Piece)}
    (hseparator : Balanced separator) (h : ∀ row ∈ rows, Balanced row) :
    Balanced (separator.intercalate rows) := by
  induction rows with
  | nil => exact nil
  | cons row rows ih =>
      obtain ⟨hrow, hrows⟩ := List.forall_mem_cons.mp h
      cases rows with
      | nil => rwa [List.intercalate_singleton]
      | cons other rows =>
          rw [List.intercalate_cons_cons]
          exact (hrow.append hseparator).append (ih hrows)

end Balanced
end Lexer

/-! ### Literals -/

namespace Json

theorem balanced_quotePieces (text : String) : Balanced (quotePieces text) := fun stack =>
  .cons (.own (by decide) rfl) (.cons (fits_string stack text) (.single (.own (by decide) rfl)))

/-- One of the marks of JSON that open and close nothing. -/
theorem balanced_mark {mark : String} {rest : List Piece} (hmark : mark ∈ [",", ":"])
    (hrest : Balanced rest) : Balanced (.document mark :: rest) := by
  intro stack
  refine .cons (.code (.inr (.inl ?_)) ?_) (hrest stack)
  · fin_cases hmark <;> decide
  · fin_cases hmark <;> rfl

theorem isName_word {word : String} (h : word ∈ ["null", "true", "false"]) : Text.IsName word := by
  have hwords : ∀ word ∈ ["null", "true", "false"], Text.isIdentifier word = true := by decide
  exact Text.isName_of_isIdentifier (hwords word h)

mutual
/-- **JSON values are balanced.** -/
theorem balanced_pieces : ∀ value : Json, Balanced value.pieces
  | null => .name (isName_word (by simp)) .nil
  | boolean value => .name (isName_word (by cases value <;> simp)) .nil
  | number value => fun stack => .single (fits_number stack value)
  | string text => balanced_quotePieces text
  | array items => fun _ =>
      .cons (.code (.inr (.inl (by decide))) rfl)
        ((balanced_itemPieces items _).append (.single (.code (.inr (.inl (by decide))) rfl)))
  | object fields => fun _ =>
      .cons (.code (.inr (.inl (by decide))) rfl)
        ((balanced_fieldPieces fields _).append (.single (.code (.inr (.inl (by decide))) rfl)))

theorem balanced_itemPieces : ∀ items : List Json, Balanced (itemPieces items)
  | [] => .nil
  | [item] => balanced_pieces item
  | item :: other :: rest =>
      (balanced_pieces item).append
        (balanced_mark (by simp) (balanced_itemPieces (other :: rest)))

theorem balanced_fieldPieces : ∀ fields : List (String × Json), Balanced (fieldPieces fields)
  | [] => .nil
  | [(key, value)] =>
      (balanced_quotePieces key).append (balanced_mark (by simp) (balanced_pieces value))
  | (key, value) :: other :: rest =>
      (balanced_quotePieces key).append (balanced_mark (by simp)
        ((balanced_pieces value).append
          (balanced_mark (by simp) (balanced_fieldPieces (other :: rest)))))
end

end Json

theorem balanced_keyPieces (name : String) : Balanced (keyPieces name) := by
  unfold keyPieces
  split
  · rename_i hname
    exact .name (Text.isName_of_isIdentifier hname) .nil
  · exact Json.balanced_quotePieces name

/-! ### Types -/

namespace TypeExpr

/-- What a type must look like for its text to stay in place, itself and not inside. -/
def Writable : TypeExpr → Prop
  | named name _ => Text.IsName name
  | template parts => TemplatePart.SeparateTexts parts
  | _ => True

theorem each_built_writable {P : String → Prop} : EachBuilt P Writable where
  keyword _ := trivial
  literal _ := trivial
  helper name hname _ := by
    have hnames : ∀ name ∈ helperNames, Text.isIdentifier name = true := by decide
    exact Text.isName_of_isIdentifier (hnames name hname)
  reference _ _ := Text.isName_pascalCase _
  template _ hparts := hparts
  array _ := trivial
  object _ _ _ := trivial
  combined combination _ _ _ := by cases combination <;> trivial

/-- **What is built can be written.** -/
theorem Built.writable {P : String → Prop} {type : TypeExpr} (h : Built P type) :
    Everywhere Writable type :=
  h.everywhere each_built_writable

theorem balanced_groupedPieces (least : Binding) (type : TypeExpr) {inner : List Piece}
    (h : Balanced inner) : Balanced (groupedPieces least type inner) := by
  unfold groupedPieces
  split
  · exact .enclosed (by decide) h .nil
  · exact h

theorem balanced_argumentPieces {args : List TypeExpr} (h : ∀ arg ∈ args, Balanced arg.pieces) :
    Balanced (argumentPieces args) := by
  induction args with
  | nil => exact .nil
  | cons arg args ih =>
      obtain ⟨harg, hargs⟩ := List.forall_mem_cons.mp h
      exact .own (by decide) (harg.append (ih hargs))

theorem balanced_operandPieces {separator : String} (least : Binding) {types : List TypeExpr}
    (hseparator : separator ∈ neutralTexts) (h : ∀ type ∈ types, Balanced type.pieces) :
    Balanced (operandPieces separator least types) := by
  induction types with
  | nil => exact .nil
  | cons type types ih =>
      obtain ⟨htype, htypes⟩ := List.forall_mem_cons.mp h
      exact .own hseparator ((balanced_groupedPieces least type htype).append (ih htypes))

theorem balanced_memberPieces {member : Member} (h : Balanced member.type.pieces) :
    Balanced (memberPieces member) := by
  obtain ⟨name, type, isOptional, isReadonly, isMethod⟩ := member
  have hrest : Balanced (.own ": " :: type.pieces) := .own (by decide) h
  refine Balanced.append (.append (.append (.append ?_ (balanced_keyPieces name)) ?_) ?_) hrest
  all_goals split
  all_goals first
    | exact .nil
    | exact .own (by decide) .nil

theorem balanced_furtherPieces {members : List Member}
    (h : ∀ member ∈ members, Balanced member.type.pieces) : Balanced (furtherPieces members) := by
  induction members with
  | nil => exact .nil
  | cons member members ih =>
      obtain ⟨hmember, hmembers⟩ := List.forall_mem_cons.mp h
      exact .own (by decide) ((balanced_memberPieces hmember).append (ih hmembers))

/-- The parts of a template keep the lexer in the template.  Text comes behind a placeholder or at
the beginning, and a dollar sign at the end of a text only makes the next placeholder one. -/
theorem run_partPieces {parts : List TemplatePart} (hparts : TemplatePart.SeparateTexts parts)
    (h : ∀ inner, .type inner ∈ parts → Balanced inner.pieces) (stack : List Opener) {mode : Mode}
    (hmode : mode = .template
      ∨ mode = .templateDollar ∧ ∀ part ∈ parts.head?, part.isText = false) :
    ∃ next, (next = .template ∨ next = .templateDollar)
      ∧ Run ⟨mode, stack⟩ (partPieces parts) ⟨next, stack⟩ := by
  induction parts generalizing mode with
  | nil => exact ⟨mode, hmode.imp_right And.left, .nil⟩
  | cons part parts ih =>
      have htypes : ∀ inner, .type inner ∈ parts → Balanced inner.pieces :=
        fun inner hinner => h inner (List.mem_cons_of_mem _ hinner)
      obtain ⟨hhead, htail⟩ := List.isChain_cons.mp hparts
      cases part with
      | text text =>
          obtain rfl : mode = .template := by simpa [TemplatePart.isText] using hmode
          obtain ⟨next, hnext, hfits⟩ := fits_template stack text
          have hseparate : ∀ part ∈ parts.head?, part.isText = false := fun part hpart => by
            simpa [TemplatePart.isText] using hhead part hpart
          obtain ⟨last, hlast, hrun⟩ := ih htail htypes
            (hnext.imp_right fun hdollar => ⟨hdollar, hseparate⟩)
          exact ⟨last, hlast, .cons hfits hrun⟩
      | type inner =>
          obtain ⟨last, hlast, hrun⟩ := ih htail htypes (.inl rfl)
          have hopening : Fits ⟨mode, stack⟩ (.own "$\x7b") ⟨.code, .placeholder :: stack⟩ := by
            rcases hmode with rfl | ⟨rfl, -⟩ <;> exact .own (by decide) rfl
          refine ⟨last, hlast, .cons hopening ((h inner List.mem_cons_self _).append ?_)⟩
          exact .cons (.own (by decide) rfl) hrun

theorem balanced_template {parts : List TemplatePart} (hparts : TemplatePart.SeparateTexts parts)
    (h : ∀ inner, .type inner ∈ parts → Balanced inner.pieces) :
    Balanced (template parts).pieces := by
  intro stack
  obtain ⟨mode, hmode, hrun⟩ := run_partPieces hparts h stack (.inl rfl)
  refine .cons (.own (by decide) rfl) (hrun.append (.single ?_))
  rcases hmode with rfl | rfl <;> exact .own (by decide) rfl

theorem isName_keyword (k : Keyword) : Text.IsName k.render :=
  Text.isName_of_isIdentifier (by cases k <;> decide)

/-- **Types are balanced.** -/
theorem balanced_pieces {type : TypeExpr} (h : Everywhere Writable type) :
    Balanced type.pieces := by
  induction type using TypeExpr.induction with
  | step type ih =>
      have hchildren : ∀ child ∈ type.children, Balanced child.pieces :=
        fun child hchild => ih child hchild (h.child hchild)
      match type, h, hchildren with
      | keyword k, _, _ => exact .name (isName_keyword k) .nil
      | literal value, _, _ => exact value.balanced_pieces
      | named name [], h, _ => exact .name h.self .nil
      | named name (arg :: args), h, hchildren =>
          obtain ⟨harg, hargs⟩ := List.forall_mem_cons.mp hchildren
          -- angle brackets are no brackets to the lexer
          have hclosing : Balanced [.own ">"] := .own (by decide) .nil
          exact .name h.self (.own (by decide)
            ((harg.append (balanced_argumentPieces hargs)).append hclosing))
      | template parts, h, hchildren =>
          exact balanced_template h.self fun inner hinner =>
            hchildren inner (mem_children_template.mpr hinner)
      | array item, _, hchildren =>
          exact (balanced_groupedPieces .tight item (hchildren item (by simp [children]))).append
            (.own (by decide) .nil)
      | object [], _, _ => exact .own (by decide) .nil
      | object (member :: members), _, hchildren =>
          obtain ⟨hmember, hmembers⟩ := List.forall_mem_cons.mp hchildren
          exact .enclosed (by decide)
            ((balanced_memberPieces hmember).append
              (balanced_furtherPieces fun other hother =>
                hmembers other.type (List.mem_map_of_mem hother))) .nil
      | union [], _, _ => exact .nil
      | union (type :: types), _, hchildren =>
          obtain ⟨htype, htypes⟩ := List.forall_mem_cons.mp hchildren
          exact (balanced_groupedPieces .intersection type htype).append
            (balanced_operandPieces .intersection (by decide) htypes)
      | intersection [], _, _ => exact .nil
      | intersection (type :: types), _, hchildren =>
          obtain ⟨htype, htypes⟩ := List.forall_mem_cons.mp hchildren
          exact (balanced_groupedPieces .tight type htype).append
            (balanced_operandPieces .tight (by decide) htypes)

end TypeExpr

end ApiTypings
