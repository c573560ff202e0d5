/-
Types inside types.

Most of what is shown of type expressions holds at every depth of them: that unions are
not nested, that names are names, that texts do not touch.  `Occurs` is what "at every
depth" means, and `Everywhere P` says `P` of every type that occurs.  Both rest on
`children`, which lists what stands directly inside a type, so that nothing later has
to go through arguments, template parts and members one by one.

Types are combined by unions and by intersections.  `Combination` has what these have in common:
how operands are found, and what holds of a combination when it holds of its types.
-/
import Mathlib
import ApiTypings.TypeExpr.Basic

namespace ApiTypings

namespace TemplatePart

/-- The type of a template part, if it is one. -/
def type? : TemplatePart → Option TypeExpr
  | type inner => some inner
  | text _ => none

/-- Whether a part is text. -/
def isText : TemplatePart → Bool
  | text _ => true
  | type _ => false

/-- No two texts are neighbours, so that it is visible where one ends. -/
def SeparateTexts (parts : List TemplatePart) : Prop :=
  parts.IsChain fun first second => ¬(first.isText = true ∧ second.isText = true)

end TemplatePart

namespace TypeExpr

/-- The types that stand directly inside a type. -/
def children : TypeExpr → List TypeExpr
  | keyword _ => []
  | literal _ => []
  | named _ args => args
  | template parts => parts.filterMap TemplatePart.type?
  | array item => [item]
  | object members => members.map Member.type
  | union members => members
  | intersection members => members

theorem sizeOf_lt_of_mem_children {type child : TypeExpr} (h : child ∈ type.children) :
    sizeOf child < sizeOf type := by
  cases type with
  | keyword k => simp [children] at h
  | literal value => simp [children] at h
  | named name args =>
      have := List.sizeOf_lt_of_mem (show child ∈ args from h)
      simp only [named.sizeOf_spec]
      omega
  | template parts =>
      obtain ⟨part, hpart, hchild⟩ := List.mem_filterMap.mp h
      cases part with
      | text text => simp [TemplatePart.type?] at hchild
      | type inner =>
          obtain rfl := Option.some.inj hchild
          have := List.sizeOf_lt_of_mem hpart
          simp only [template.sizeOf_spec, TemplatePart.type.sizeOf_spec] at this ⊢
          omega
  | array item =>
      rw [List.mem_singleton.mp h]
      simp only [array.sizeOf_spec]
      omega
  | object members =>
      obtain ⟨member, hmember, rfl⟩ := List.mem_map.mp h
      have := List.sizeOf_lt_of_mem hmember
      obtain ⟨name, type, isOptional, isReadonly, isMethod⟩ := member
      simp only [object.sizeOf_spec, Member.mk.sizeOf_spec] at this ⊢
      omega
  | union members =>
      have := List.sizeOf_lt_of_mem (show child ∈ members from h)
      simp only [union.sizeOf_spec]
      omega
  | intersection members =>
      have := List.sizeOf_lt_of_mem (show child ∈ members from h)
      simp only [intersection.sizeOf_spec]
      omega

theorem mem_children_template {inner : TypeExpr} {parts : List TemplatePart} :
    inner ∈ (template parts).children ↔ .type inner ∈ parts := by
  constructor
  · intro h
    obtain ⟨part, hpart, htype⟩ := List.mem_filterMap.mp h
    cases part with
    | text value => cases htype
    | type found =>
        cases htype
        exact hpart
  · exact fun h => List.mem_filterMap.mpr ⟨_, h, rfl⟩

/-- What holds of a type whenever it holds of the types inside holds of all types. -/
theorem induction {P : TypeExpr → Prop}
    (step : ∀ type, (∀ child ∈ type.children, P child) → P type) (type : TypeExpr) : P type :=
  step type fun child _ => induction step child
termination_by type
decreasing_by exact sizeOf_lt_of_mem_children ‹_›

/-- `inner` is the type itself or stands somewhere inside it. -/
inductive Occurs (inner : TypeExpr) : TypeExpr → Prop
  | self : Occurs inner inner
  | inside {child outer : TypeExpr} (hchild : child ∈ outer.children) (h : Occurs inner child) :
      Occurs inner outer

/-- `P` holds of a type and of everything inside it. -/
def Everywhere (P : TypeExpr → Prop) (type : TypeExpr) : Prop :=
  ∀ inner, Occurs inner type → P inner

variable {P : TypeExpr → Prop}

theorem everywhere_iff {type : TypeExpr} :
    Everywhere P type ↔ P type ∧ ∀ child ∈ type.children, Everywhere P child := by
  constructor
  · intro h
    exact ⟨h type .self, fun child hchild inner hinner => h inner (.inside hchild hinner)⟩
  · rintro ⟨hself, hchildren⟩ inner hinner
    cases hinner with
    | self => exact hself
    | inside hchild hinner => exact hchildren _ hchild inner hinner

theorem Everywhere.self {type : TypeExpr} (h : Everywhere P type) : P type := h type .self

theorem Everywhere.child {type child : TypeExpr} (h : Everywhere P type)
    (hchild : child ∈ type.children) : Everywhere P child :=
  (everywhere_iff.mp h).2 child hchild

end TypeExpr

/-! ### Unions and intersections of lists

They are two cases of one construction, and what can be shown of both is shown of the
construction.  It takes the members of its own kind apart, and every part is a type inside a given
type.
-/

open TypeExpr

/-- A way to combine types. -/
inductive Combination
  | union
  | intersection

namespace Combination

/-- The combination of types. -/
def of : Combination → List TypeExpr → TypeExpr
  | union => ofUnion
  | intersection => ofIntersection

/-- The constructor that holds the operands of a combination. -/
def holding : Combination → List TypeExpr → TypeExpr
  | union => TypeExpr.union
  | intersection => TypeExpr.intersection

/-- What stands for the combination of no types. -/
def neutral : Combination → TypeExpr
  | union => never
  | intersection => unknown

/-- The operands of a combination of this kind; any other type is its own operand. -/
def operands : Combination → TypeExpr → List TypeExpr
  | union => alternatives
  | intersection => conjuncts

variable (combination : Combination) {type part : TypeExpr} {types : List TypeExpr}
  {P : TypeExpr → Prop}

theorem of_eq (types : List TypeExpr) :
    combination.of types = match types.flatMap combination.operands with
      | [] => combination.neutral
      | [type] => type
      | members => combination.holding members := by
  cases combination <;> rfl

theorem operands_holding (members : List TypeExpr) :
    combination.operands (combination.holding members) = members := by
  cases combination <;> rfl

theorem children_holding (members : List TypeExpr) :
    (combination.holding members).children = members := by
  cases combination <;> rfl

theorem children_neutral : combination.neutral.children = [] := by
  cases combination <;> rfl

theorem holding_or_ne (type : TypeExpr) :
    (∃ members, type = combination.holding members)
      ∨ (∀ members, type ≠ combination.holding members) ∧ combination.operands type = [type] := by
  cases combination <;> cases type <;> first | exact .inl ⟨_, rfl⟩ | exact .inr ⟨nofun, rfl⟩

theorem operands_of_ne (h : ∀ members, type ≠ combination.holding members) :
    combination.operands type = [type] := by
  rcases combination.holding_or_ne type with ⟨members, hheld⟩ | ⟨-, hsingle⟩
  · exact absurd hheld (h members)
  · exact hsingle

/-- An operand is the type itself or stands directly inside it. -/
theorem eq_or_mem_children (h : part ∈ combination.operands type) :
    part = type ∨ part ∈ type.children := by
  rcases combination.holding_or_ne type with ⟨members, rfl⟩ | ⟨-, hsingle⟩
  · rw [operands_holding] at h
    rw [children_holding]
    exact .inr h
  · rw [hsingle] at h
    exact .inl (List.mem_singleton.mp h)

theorem everywhere_operand (h : Everywhere P type) (hpart : part ∈ combination.operands type) :
    Everywhere P part := by
  rcases combination.eq_or_mem_children hpart with rfl | hchild
  · exact h
  · exact h.child hchild

section

variable (hholding : ∀ members, P (combination.holding members) ↔ ∃ member ∈ members, P member)
include hholding

theorem exists_mem_operands_iff (type : TypeExpr) :
    (∃ part ∈ combination.operands type, P part) ↔ P type := by
  rcases combination.holding_or_ne type with ⟨members, rfl⟩ | ⟨-, hsingle⟩
  · rw [operands_holding]
    exact (hholding members).symm
  · simp [hsingle]

/-- What the holder of members has exactly if a member has it, the combination of types has exactly
if one of the types has it. -/
theorem of_iff (hneutral : ¬P combination.neutral) :
    P (combination.of types) ↔ ∃ type ∈ types, P type := by
  have hparts : (∃ part ∈ types.flatMap combination.operands, P part) ↔ ∃ type ∈ types, P type := by
    have hoperands := combination.exists_mem_operands_iff hholding
    constructor
    · rintro ⟨part, hpart, hP⟩
      obtain ⟨type, htype, hpart⟩ := List.mem_flatMap.mp hpart
      exact ⟨type, htype, (hoperands type).mp ⟨part, hpart, hP⟩⟩
    · rintro ⟨type, htype, hP⟩
      obtain ⟨part, hpart, hP⟩ := (hoperands type).mpr hP
      exact ⟨part, List.mem_flatMap.mpr ⟨type, htype, hpart⟩, hP⟩
  rw [← hparts, of_eq]
  split
  · rename_i hnil
    simp [hnil, hneutral]
  · rename_i type hone
    simp [hone]
  · exact hholding _

end

theorem two_le_length {α : Type} {items : List α} (hnil : items = [] → False)
    (hone : ∀ item, items = [item] → False) : 2 ≤ items.length := by
  match items, hnil, hone with
  | [], hnil, _ => exact (hnil rfl).elim
  | [item], _, hone => exact (hone item rfl).elim
  | _ :: _ :: _, _, _ => simp

theorem everywhere_of (h : ∀ type ∈ types, Everywhere P type) (hneutral : P combination.neutral)
    (hholding : 2 ≤ (types.flatMap combination.operands).length →
      P (combination.holding (types.flatMap combination.operands))) :
    Everywhere P (combination.of types) := by
  have hparts : ∀ part ∈ types.flatMap combination.operands, Everywhere P part := by
    intro part hpart
    obtain ⟨type, htype, hpart⟩ := List.mem_flatMap.mp hpart
    exact combination.everywhere_operand (h type htype) hpart
  rw [of_eq]
  split
  · exact everywhere_iff.mpr ⟨hneutral, by simp [children_neutral]⟩
  · rename_i type hone
    exact hparts type (by simp [hone])
  · rename_i hnil hone
    refine everywhere_iff.mpr ⟨hholding (two_le_length hnil hone), ?_⟩
    rwa [children_holding]

end Combination
end ApiTypings
