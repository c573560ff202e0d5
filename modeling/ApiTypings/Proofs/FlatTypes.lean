/-
Unions and intersections are flat.

`ofUnion` puts the members of a union in its place, but only those of the types it is given: what
stands deeper is left as it is.  One level is enough where the given types are flat themselves, and
lowering gives flat types only.  So the alternatives of a union are the alternatives of its parts,
one after the other, and what becomes of them can be read off the parts.
-/
import Mathlib
import ApiTypings.Proofs.LoweredTypes
import ApiTypings.Proofs.TypeStructure

namespace ApiTypings

namespace TypeExpr

/-- A union or an intersection has several members, and none of its own kind. -/
def Flat : TypeExpr → Prop
  | union members => 2 ≤ members.length ∧ ∀ member ∈ members, ∀ inner, member ≠ union inner
  | intersection members =>
    2 ≤ members.length ∧ ∀ member ∈ members, ∀ inner, member ≠ intersection inner
  | _ => True

end TypeExpr

open TypeExpr

variable {type part : TypeExpr} {types : List TypeExpr}

/-! ### The operands of a flat type -/

namespace Combination

variable (combination : Combination)

theorem flat_holding_iff {members : List TypeExpr} :
    Flat (combination.holding members) ↔ 2 ≤ members.length
      ∧ ∀ member ∈ members, ∀ inner, member ≠ combination.holding inner := by
  cases combination <;> rfl

/-- An operand of a flat type is no combination of the same kind. -/
theorem ne_holding_of_mem_operands (h : Flat type) (hpart : part ∈ combination.operands type)
    (inner : List TypeExpr) : part ≠ combination.holding inner := by
  rcases combination.holding_or_ne type with ⟨members, rfl⟩ | ⟨hne, hsingle⟩
  · rw [operands_holding] at hpart
    exact (combination.flat_holding_iff.mp h).2 part hpart inner
  · rw [hsingle] at hpart
    rw [List.mem_singleton.mp hpart]
    exact hne inner

theorem operands_ne_nil (h : Flat type) : combination.operands type ≠ [] := by
  rcases combination.holding_or_ne type with ⟨members, rfl⟩ | ⟨-, hsingle⟩
  · have hlength := (combination.flat_holding_iff.mp h).1
    rw [operands_holding]
    rintro rfl
    simp at hlength
  · rw [hsingle]
    exact List.cons_ne_nil _ _

theorem operands_of_of_ne
    (h : ∀ part ∈ types.flatMap combination.operands, ∀ inner, part ≠ combination.holding inner)
    (hne : types.flatMap combination.operands ≠ []) :
    combination.operands (combination.of types) = types.flatMap combination.operands := by
  rw [of_eq]
  split
  · rename_i hnil
    exact absurd hnil hne
  · rename_i part hone
    rw [operands_of_ne combination (h part (by simp [hone])), hone]
  · exact combination.operands_holding _

/-- **The operands of a combination are those of the types, in their order.** -/
theorem operands_of (h : ∀ type ∈ types, Flat type) (hne : types ≠ []) :
    combination.operands (combination.of types) = types.flatMap combination.operands := by
  refine combination.operands_of_of_ne (fun part hpart => ?_) fun hnil => ?_
  · obtain ⟨type, htype, hpart⟩ := List.mem_flatMap.mp hpart
    exact combination.ne_holding_of_mem_operands (h type htype) hpart
  · obtain ⟨first, hfirst⟩ := List.exists_mem_of_ne_nil types hne
    have hoperands := List.flatMap_eq_nil_iff.mp hnil first hfirst
    exact combination.operands_ne_nil (h first hfirst) hoperands

theorem everywhere_flat_of (h : ∀ type ∈ types, Everywhere Flat type) :
    Everywhere Flat (combination.of types) := by
  refine combination.everywhere_of h (by cases combination <;> trivial) fun hlength => ?_
  refine combination.flat_holding_iff.mpr ⟨hlength, fun part hpart => ?_⟩
  obtain ⟨type, htype, hpart⟩ := List.mem_flatMap.mp hpart
  exact combination.ne_holding_of_mem_operands (h type htype).self hpart

end Combination

/-! ### Unions and intersections with their names -/

namespace TypeExpr

theorem alternatives_of_ne_union (h : ∀ inner, type ≠ union inner) : type.alternatives = [type] :=
  Combination.union.operands_of_ne h

theorem conjuncts_of_ne_intersection (h : ∀ inner, type ≠ intersection inner) :
    type.conjuncts = [type] :=
  Combination.intersection.operands_of_ne h

theorem alternatives_ofUnion_of_ne_union
    (h : ∀ part ∈ types.flatMap alternatives, ∀ inner, part ≠ union inner)
    (hne : types.flatMap alternatives ≠ []) :
    (ofUnion types).alternatives = types.flatMap alternatives :=
  Combination.union.operands_of_of_ne h hne

theorem flatMap_alternatives_self (h : ∀ type ∈ types, ∀ inner, type ≠ union inner) :
    types.flatMap alternatives = types := by
  rw [List.flatMap_congr fun type htype => alternatives_of_ne_union (h type htype)]
  exact List.flatMap_singleton' types

/-- Types that are no unions are the alternatives of their union. -/
theorem alternatives_ofUnion_self (h : ∀ type ∈ types, ∀ inner, type ≠ union inner)
    (hne : types ≠ []) : (ofUnion types).alternatives = types := by
  have hparts := flatMap_alternatives_self h
  have hunion := alternatives_ofUnion_of_ne_union (hparts.symm ▸ h) (hparts.symm ▸ hne)
  exact hunion.trans hparts

/-- **The alternatives of a union are those of its parts.** -/
theorem alternatives_ofUnion (h : ∀ type ∈ types, Flat type) (hne : types ≠ []) :
    (ofUnion types).alternatives = types.flatMap alternatives :=
  Combination.union.operands_of h hne

/-! ### Lowered types are flat -/

theorem keeps_flat {coerce : Bool} {schema : OpenApi.Schema} :
    Keeps coerce (Everywhere Flat) schema where
  keyword k _ := everywhere_iff.mpr ⟨trivial, nofun⟩
  stringified _ k := by
    refine everywhere_iff.mpr ⟨trivial, fun type htype => ?_⟩
    obtain rfl : type = .keyword k := by simpa using mem_children_template.mp htype
    exact everywhere_iff.mpr ⟨trivial, nofun⟩
  literal value := everywhere_iff.mpr ⟨trivial, nofun⟩
  applied _ _ _ hargs := everywhere_iff.mpr ⟨trivial, hargs⟩
  array _ hitem := everywhere_iff.mpr ⟨trivial, List.forall_mem_singleton.mpr hitem⟩
  ofUnion _ htypes := Combination.union.everywhere_flat_of htypes
  ofIntersection _ htypes := Combination.intersection.everywhere_flat_of htypes
  reference _ _ := everywhere_iff.mpr ⟨trivial, nofun⟩
  object _ _ _ _ _ hmembers := everywhere_iff.mpr ⟨trivial, List.forall_mem_map.mpr hmembers⟩

/-- **Every lowered type is flat at every depth.** -/
theorem flat_of_lowered {coerce : Bool} {schema : OpenApi.Schema} :
    ∀ type ∈ lowered coerce schema, Everywhere Flat type :=
  lowered_induction keeps_flat

end TypeExpr
end ApiTypings
