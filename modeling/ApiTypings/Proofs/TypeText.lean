/-
The text of a type expression determines the expression.

`Reads` of a type follows from `Reads` of smaller types, kind by kind.  What is left
undetermined is the null that is written like the keyword, and it makes no difference to
the text anywhere.
-/
import Mathlib
import ApiTypings.Proofs.TypeText.Members
import ApiTypings.Proofs.TypeText.Templates

namespace ApiTypings.TypeExpr

/-! ### All types -/

/-- A type is read when everything inside is. -/
theorem readsPiece_of_children {a : TypeExpr} (ha : Everywhere Legible a)
    (hna : ∀ item, a ≠ array item) (ih : ∀ child ∈ a.children, ∀ least, Reads least child) :
    ReadsPiece a := by
  cases a with
  | keyword k => exact reads_keyword k
  | literal value => exact reads_literal value
  | named name args => exact reads_named ha.self fun arg harg => ih arg harg .union
  | template parts =>
      exact reads_template ha.self fun type htype =>
        ih type (mem_children_template.mpr htype) .union
  | array item => exact absurd rfl (hna item)
  | object members =>
      exact reads_object ha.self fun member hmember =>
        ih member.type (List.mem_map.mpr ⟨member, hmember, rfl⟩) .union
  | union members =>
      exact reads_grouped ha.self (by simp [binding, Binding.rank])
        (reads_union ha fun part hpart => ih part hpart .intersection)
  | intersection members =>
      have hself := reads_intersection ha fun part hpart => ih part hpart .tight
      refine reads_grouped ha.self (by simp [binding, Binding.rank]) (reads_union ha ?_)
      intro part hpart
      rwa [List.mem_singleton.mp hpart]

/-- **The text of a type fixes the type on every level.** -/
theorem reads {a : TypeExpr} (ha : Everywhere Legible a) : ∀ least, Reads least a := by
  -- the brackets hide the innermost item, so the induction is on the size
  induction hsize : sizeOf a using Nat.strong_induction_on generalizing a with
  | _ n ih =>
      subst hsize
      have hchildren : ∀ b, sizeOf b ≤ sizeOf a → Everywhere Legible b →
          ∀ child ∈ b.children, ∀ least, Reads least child := by
        intro b hb hlegible child hchild
        exact ih _ (Nat.lt_of_lt_of_le (sizeOf_lt_of_mem_children hchild) hb)
          (hlegible.child hchild) rfl
      have htight : Reads .tight a := reads_tight (readsPiece_of_children (everywhere_element ha)
        (element_ne_array a) (hchildren _ (sizeOf_element_le a) (everywhere_element ha)))
      have hconjuncts : ∀ part ∈ a.conjuncts, Reads .tight part := by
        intro part hpart
        rcases Combination.intersection.eq_or_mem_children hpart with rfl | hchild
        · exact htight
        · exact hchildren _ (Nat.le_refl _) ha part hchild .tight
      have hintersection : Reads .intersection a := reads_intersection ha hconjuncts
      have halternatives : ∀ part ∈ a.alternatives, Reads .intersection part := by
        intro part hpart
        rcases Combination.union.eq_or_mem_children hpart with rfl | hchild
        · exact hintersection
        · exact hchildren _ (Nat.le_refl _) ha part hchild .intersection
      intro least
      cases least with
      | union => exact reads_union ha halternatives
      | intersection => exact hintersection
      | tight => exact htight

/-- Types with one text are one type, up to nulls. -/
theorem nullAsKeyword_eq_of_render {a b : TypeExpr} (ha : Everywhere Legible a)
    (hb : Everywhere Legible b) (h : a.render = b.render) : a.nullAsKeyword = b.nullAsKeyword := by
  have hends : Ends .union [] := ⟨⟨by simp [EndsTight], by simp⟩, by simp⟩
  refine (reads ha .union b [] [] hb hends hends ?_).1
  rw [operandText_union, operandText_union, h]

/-- For what nulls make no difference, it is the text that counts. -/
theorem iff_of_render {P : TypeExpr → Prop} (hnull : ∀ type, P type.nullAsKeyword ↔ P type)
    {a b : TypeExpr} (ha : Everywhere Legible a) (hb : Everywhere Legible b)
    (h : a.render = b.render) : P a ↔ P b := by
  rw [← hnull a, nullAsKeyword_eq_of_render ha hb h, hnull]

/-! ### Nulls make no difference to the text

So the types with one text are exactly the types that differ in nulls only.
-/

theorem binding_nullAsKeyword (a : TypeExpr) : a.nullAsKeyword.binding = a.binding := by
  cases a with
  | literal value => cases value <;> simp [nullAsKeyword, binding]
  | _ => rfl

theorem parenthesize_nullAsKeyword (least : Binding) (a : TypeExpr) (text : String) :
    parenthesize least a.nullAsKeyword text = parenthesize least a text := by
  rw [parenthesize, parenthesize, binding_nullAsKeyword]

theorem renderArguments_map {types : List TypeExpr}
    (h : ∀ a ∈ types, a.nullAsKeyword.render = a.render) :
    renderArguments (types.map nullAsKeyword) = renderArguments types := by
  induction types with
  | nil => rfl
  | cons a types ih =>
      rw [List.map_cons, renderArguments, renderArguments, h a (by simp),
        ih fun b hb => h b (List.mem_cons_of_mem _ hb)]

theorem renderOperands_map {separator : String} {least : Binding} {types : List TypeExpr}
    (h : ∀ a ∈ types, a.nullAsKeyword.render = a.render) :
    renderOperands separator least (types.map nullAsKeyword)
      = renderOperands separator least types := by
  induction types with
  | nil => rfl
  | cons a types ih =>
      rw [List.map_cons, renderOperands, renderOperands, parenthesize_nullAsKeyword, h a (by simp),
        ih fun b hb => h b (List.mem_cons_of_mem _ hb)]

theorem renderParts_map {parts : List TemplatePart}
    (h : ∀ a, .type a ∈ parts → a.nullAsKeyword.render = a.render) :
    renderParts (parts.map TemplatePart.nullAsKeyword) = renderParts parts := by
  induction parts with
  | nil => rfl
  | cons part parts ih =>
      have htail := ih fun a ha => h a (List.mem_cons_of_mem _ ha)
      cases part with
      | text text =>
          rw [List.map_cons, TemplatePart.nullAsKeyword, renderParts, renderParts, htail]
      | type a =>
          rw [List.map_cons, TemplatePart.nullAsKeyword, renderParts, renderParts, htail,
            h a (by simp)]

theorem renderMember_nullAsKeyword {member : Member}
    (h : member.type.nullAsKeyword.render = member.type.render) :
    renderMember member.nullAsKeyword = renderMember member := by
  obtain ⟨name, type, isOptional, isReadonly, isMethod⟩ := member
  rw [Member.nullAsKeyword, renderMember, renderMember, h]

theorem renderMembers_map {members : List Member}
    (h : ∀ member ∈ members, member.type.nullAsKeyword.render = member.type.render) :
    renderMembers (members.map Member.nullAsKeyword) = renderMembers members := by
  induction members with
  | nil => rfl
  | cons member members ih =>
      rw [List.map_cons, renderMembers, renderMembers, renderMember_nullAsKeyword (h _ (by simp)),
        ih fun other hother => h other (List.mem_cons_of_mem _ hother)]

theorem render_nullAsKeyword (a : TypeExpr) : a.nullAsKeyword.render = a.render := by
  induction a using TypeExpr.induction with
  | step a ih =>
      cases a with
      | keyword k => rw [nullAsKeyword]
      | literal value =>
          cases value <;> simp [nullAsKeyword, render, Json.render, Keyword.render]
      | named name args =>
          rw [nullAsKeyword, nullAsKeywordAll_eq]
          cases args with
          | nil => rfl
          | cons arg args =>
              rw [List.map_cons, render, render, ih arg (by simp [children]),
                renderArguments_map fun b hb => ih b (by simp [children, hb])]
      | template parts =>
          rw [nullAsKeyword, nullAsKeywordParts_eq, render, render,
            renderParts_map fun b hb => ih b (mem_children_template.mpr hb)]
      | array item =>
          rw [nullAsKeyword, render, render, parenthesize_nullAsKeyword,
            ih item (by simp [children])]
      | object members =>
          rw [nullAsKeyword, nullAsKeywordMembers_eq]
          cases members with
          | nil => rfl
          | cons member members =>
              rw [List.map_cons, render, render,
                renderMember_nullAsKeyword (ih member.type (by simp [children])),
                renderMembers_map fun b hb => ih b.type (List.mem_map.mpr ⟨b, by simp [hb], rfl⟩)]
      | union members =>
          rw [nullAsKeyword_union]
          cases members with
          | nil => rfl
          | cons member members =>
              rw [List.map_cons, render, render, parenthesize_nullAsKeyword,
                ih member (by simp [children]),
                renderOperands_map fun b hb => ih b (by simp [children, hb])]
      | intersection members =>
          rw [nullAsKeyword_intersection]
          cases members with
          | nil => rfl
          | cons member members =>
              rw [List.map_cons, render, render, parenthesize_nullAsKeyword,
                ih member (by simp [children]),
                renderOperands_map fun b hb => ih b (by simp [children, hb])]

/-- **Two types have one text exactly when they differ in nothing but the spelling of null.** -/
theorem render_eq_iff {a b : TypeExpr} (ha : Everywhere Legible a) (hb : Everywhere Legible b) :
    a.render = b.render ↔ a.nullAsKeyword = b.nullAsKeyword := by
  constructor
  · exact nullAsKeyword_eq_of_render ha hb
  · intro h
    rw [← render_nullAsKeyword a, h, render_nullAsKeyword]

/-- An optional member `readonly` and a read-only template, with the literal null on one side and
the keyword on the other. -/
theorem render_eq_iff_readonly :
    let nested (nothing : TypeExpr) : TypeExpr := object [
      { name := "readonly", type := array (union [nothing, name "Pet"]), isOptional := true },
      { name := "x-tag", type := template [.text "$", .type nothing], isReadonly := true }]
    (Everywhere Legible (nested (literal .null)) ∧ Everywhere Legible (nested null))
      ∧ ((nested (literal .null)).render = (nested null).render
        ↔ (nested (literal .null)).nullAsKeyword = (nested null).nullAsKeyword) := by
  have hpet : Everywhere Legible (name "Pet") := by
    refine everywhere_iff.mpr ⟨⟨by decide, ?_⟩, by simp [name, children]⟩
    intro c hc
    obtain rfl : 'P' = c := by simpa using hc
    rfl
  have hlegible : ∀ nothing : TypeExpr, Everywhere Legible nothing → Everywhere Legible (object [
      { name := "readonly", type := array (union [nothing, name "Pet"]), isOptional := true },
      { name := "x-tag", type := template [.text "$", .type nothing], isReadonly := true }]) := by
    intro nothing hnothing
    have hunion : Everywhere Legible (union [nothing, name "Pet"]) :=
      everywhere_iff.mpr ⟨Nat.le_refl 2, by simp [children, hnothing, hpet]⟩
    have harray : Everywhere Legible (array (union [nothing, name "Pet"])) :=
      everywhere_iff.mpr ⟨trivial, by simp [children, hunion]⟩
    have htemplate : Everywhere Legible (template [.text "$", .type nothing]) := by
      refine everywhere_iff.mpr ⟨⟨by simp, ?_⟩, by simp [children, TemplatePart.type?, hnothing]⟩
      simp [TemplatePart.SeparateTexts, TemplatePart.isText]
    exact everywhere_iff.mpr ⟨by simp [Legible], by simp [children, harray, htemplate]⟩
  have hliteral := hlegible (literal .null) (everywhere_iff.mpr ⟨trivial, by simp [children]⟩)
  have hkeyword := hlegible null (everywhere_iff.mpr ⟨trivial, by simp [null, children]⟩)
  exact ⟨⟨hliteral, hkeyword⟩, render_eq_iff hliteral hkeyword⟩

end ApiTypings.TypeExpr
