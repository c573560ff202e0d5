/-
How types are grouped before they are combined does not matter.

A union takes the members of a union in its place, but looks no deeper, and it is no union at all
where a single member is left.  So a union of unions could well differ from the union of all
members.  It does not where every type is flat: then the operands of a combination are exactly
those of the types it is made of, one after the other, and nothing but the operands counts.

Unions and intersections are two cases of one construction, and all of this is shown of both at
once.  What a combination is compared with are the leaves of its types, which are found by taking
operands apart at every depth.
-/
import Mathlib
import ApiTypings.Proofs.FlatTypes

namespace ApiTypings

open TypeExpr

namespace Combination

/-- What a type is combined of, with combinations of this kind taken apart at every depth. -/
def leaves : Combination → TypeExpr → List TypeExpr
  | union, .union members => members.attach.flatMap fun member => leaves union member.val
  | intersection, .intersection members =>
    members.attach.flatMap fun member => leaves intersection member.val
  | _, type => [type]
termination_by _ type => sizeOf type
decreasing_by
  all_goals
    have := List.sizeOf_lt_of_mem member.property
    simp only [TypeExpr.union.sizeOf_spec, TypeExpr.intersection.sizeOf_spec]
    omega

variable (combination : Combination) {type : TypeExpr} {types : List TypeExpr}

/-! ### Operands and leaves -/

/-- A type that is no combination of this kind is its only leaf. -/
theorem leaves_of_ne (h : ∀ members, type ≠ combination.holding members) :
    combination.leaves type = [type] := by
  cases combination with
  | union =>
      rw [leaves.eq_def]
      split
      · exact absurd rfl (h _)
      · contradiction
      · rfl
  | intersection =>
      rw [leaves.eq_def]
      split
      · contradiction
      · exact absurd rfl (h _)
      · rfl

theorem leaves_holding (members : List TypeExpr) :
    combination.leaves (combination.holding members) = members.flatMap combination.leaves := by
  cases combination with
  | union => simp [holding, leaves]
  | intersection => simp [holding, leaves]

/-- The operands of a flat type are its leaves: one level is all there is to take apart. -/
theorem leaves_eq_operands (h : Flat type) :
    combination.leaves type = combination.operands type := by
  rcases combination.holding_or_ne type with ⟨members, rfl⟩ | ⟨hne, hsingle⟩
  · have hself : ∀ member ∈ members, combination.leaves member = [member] := by
      intro member hmember
      refine combination.leaves_of_ne (combination.ne_holding_of_mem_operands h ?_)
      rwa [operands_holding]
    rw [leaves_holding, operands_holding, List.flatMap_congr hself]
    exact List.flatMap_singleton' members
  · rw [combination.leaves_of_ne hne, hsingle]

/-! ### Groups of types -/

variable {groups : List (List TypeExpr)}

/-- Nothing but the operands of the types counts in their combination. -/
theorem of_congr {others : List TypeExpr}
    (h : types.flatMap combination.operands = others.flatMap combination.operands) :
    combination.of types = combination.of others := by
  rw [of_eq, of_eq, h]

theorem of_map_of (h : ∀ group ∈ groups, group ≠ [] ∧ ∀ type ∈ group, Flat type) :
    combination.of (groups.map combination.of) = combination.of groups.flatten := by
  refine combination.of_congr ?_
  have hgroups : ∀ group ∈ groups,
      combination.operands (combination.of group) = group.flatMap combination.operands := by
    intro group hgroup
    obtain ⟨hne, hflat⟩ := h group hgroup
    exact combination.operands_of hflat hne
  calc (groups.map combination.of).flatMap combination.operands
      = groups.flatMap fun group => combination.operands (combination.of group) := by
        rw [List.flatMap_map]
    _ = groups.flatMap fun group => group.flatMap combination.operands :=
        List.flatMap_congr hgroups
    _ = groups.flatten.flatMap combination.operands := by
        rw [List.flatten_eq_flatMap, List.flatMap_assoc]
        rfl

/-- **Grouping does not matter.**  The combination of the combinations of groups is that of all
types together.  It is flat at every depth, and its operands are the leaves of the types: each is
there as often as it occurs and in its place, and none of them is a combination of the same
kind. -/
theorem regrouped (combination : Combination)
    (h : ∀ group ∈ groups, group ≠ [] ∧ ∀ type ∈ group, Everywhere Flat type) :
    combination.of (groups.map combination.of) = combination.of groups.flatten
      ∧ Everywhere Flat (combination.of groups.flatten)
      ∧ (groups = [] → combination.of groups.flatten = combination.neutral)
      ∧ (groups ≠ [] →
        combination.operands (combination.of groups.flatten)
          = groups.flatten.flatMap combination.leaves)
      ∧ ∀ part ∈ combination.operands (combination.of groups.flatten), ∀ members,
        part ≠ combination.holding members := by
  have htypes : ∀ type ∈ groups.flatten, Everywhere Flat type := by
    intro type htype
    obtain ⟨group, hgroup, htype⟩ := List.mem_flatten.mp htype
    exact (h group hgroup).2 type htype
  have hflat : Everywhere Flat (combination.of groups.flatten) :=
    combination.everywhere_flat_of htypes
  refine ⟨?_, hflat, ?_, ?_, ?_⟩
  · refine combination.of_map_of fun group hgroup => ?_
    obtain ⟨hne, hgroup⟩ := h group hgroup
    exact ⟨hne, fun type htype => (hgroup type htype).self⟩
  · rintro rfl
    rw [of_eq]
    rfl
  · intro hne
    have hflatten : groups.flatten ≠ [] := by
      obtain ⟨group, hgroup⟩ := List.exists_mem_of_ne_nil groups hne
      intro hnil
      exact (h group hgroup).1 (List.flatten_eq_nil_iff.mp hnil group hgroup)
    rw [combination.operands_of (fun type htype => (htypes type htype).self) hflatten]
    refine List.flatMap_congr fun type htype => ?_
    exact (combination.leaves_eq_operands (htypes type htype).self).symm
  · intro part hpart
    exact combination.ne_holding_of_mem_operands hflat.self hpart

/-- A group with a union in it, a group that comes to a single type with a union inside, and a type
that is there twice. -/
theorem regrouped_nested :
    let inner := intersection.of [name "Pet", union.of [string, null]]
    let groups := [[string, union.of [number, null]], [inner], [null]]
    (∀ group ∈ groups, group ≠ [] ∧ ∀ type ∈ group, Everywhere Flat type)
      ∧ union.of (groups.map union.of) = union.of groups.flatten
      ∧ Everywhere Flat (union.of groups.flatten)
      ∧ groups.flatten.flatMap union.leaves = [string, number, null, inner, null] := by
  intro inner groups
  have hplain : ∀ type ∈ [string, number, null, name "Pet"], Everywhere Flat type := by
    intro type htype
    refine everywhere_iff.mpr ⟨?_, ?_⟩
    · fin_cases htype <;> trivial
    · fin_cases htype <;> exact nofun
  simp only [List.forall_mem_cons] at hplain
  obtain ⟨hstring, hnumber, hnull, hname, -⟩ := hplain
  have hpair : ∀ (combination : Combination) (first second : TypeExpr),
      Everywhere Flat first → Everywhere Flat second →
      Everywhere Flat (combination.of [first, second]) := by
    intro combination first second hfirst hsecond
    exact combination.everywhere_flat_of (by simp [hfirst, hsecond])
  have hinner : Everywhere Flat inner := hpair _ _ _ hname (hpair _ _ _ hstring hnull)
  have hgroups : ∀ group ∈ groups, group ≠ [] ∧ ∀ type ∈ group, Everywhere Flat type := by
    simp [groups, hinner, hstring, hnull, hpair union number null hnumber hnull]
  obtain ⟨hof, hflat, -, hoperands, -⟩ := regrouped union hgroups
  refine ⟨hgroups, hof, hflat, ?_⟩
  rw [← hoperands (by simp [groups])]
  rfl

end Combination
end ApiTypings
