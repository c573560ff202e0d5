/-
The values of a type.

A type expression stands for a set of JSON values.  `Inhabits` is that set, with the sets of
nominal names as a parameter, since their declarations stand elsewhere in the file.  An object
type asks for its members and allows further keys; an optional member may be left out.

Unions and intersections that are built from lists mean the union and the intersection of the
list, although members of their own kind are flattened on the way.  And types that are
written alike have the same values, which is what makes it right to drop equal texts from a
union.
-/
import Mathlib
import ApiTypings.Proofs.TypeText
import ApiTypings.TypeExpr.OfSchema

namespace ApiTypings

/-- The values of a keyword. -/
def Keyword.Holds : Keyword → Json → Prop
  | string, value => ∃ text, value = .string text
  | number, value => ∃ number, value = .number number
  | boolean, value => ∃ flag, value = .boolean flag
  | null, value => value = .null
  | unknown, _ => True
  | never, _ => False

/-- The text that a scalar is written as where it travels as text. -/
def Json.written? : Json → Option String
  | .string text => some text
  | .number value => some value.render
  | .boolean value => some (if value then "true" else "false")
  | .null => some "null"
  | _ => none

namespace TypeExpr

theorem sizeOf_le_of_mem_alternatives {type part : TypeExpr} (h : part ∈ type.alternatives) :
    sizeOf part ≤ sizeOf type := by
  unfold alternatives at h
  split at h
  · have := List.sizeOf_lt_of_mem h
    simp only [union.sizeOf_spec]
    omega
  · rw [List.mem_singleton.mp h]

mutual
/-- The values of a type. -/
def Inhabits (names : String → Json → Prop) : TypeExpr → Json → Prop
  | keyword k, value => k.Holds value
  | literal expected, value => value = expected
  | named "Record" [_, item], value =>
    ∃ fields, value = .object fields ∧ ∀ field ∈ fields, Inhabits names item field.2
  | named "NonNullable" [inner], value => Inhabits names inner value ∧ value ≠ .null
  -- an alternative goes only if all of its values are excluded
  | named "Exclude" [base, excluded], value =>
    ∃ (part : TypeExpr) (_ : part ∈ base.alternatives), Inhabits names part value
      ∧ ∃ other, Inhabits names part other ∧ ¬Inhabits names excluded other
  | named name _, value => names name value
  | template parts, value => ∃ text, value = .string text ∧ Spells names parts text.toList
  | array item, value =>
    ∃ elements, value = .array elements ∧ ∀ element ∈ elements, Inhabits names item element
  | object members, value =>
    ∃ fields, value = .object fields ∧ ∀ member ∈ members,
      match Json.lookup member.name fields with
      | some found => Inhabits names member.type found
      | none => member.isOptional = true
  | union members, value =>
    ∃ (member : TypeExpr) (_ : member ∈ members), Inhabits names member value
  | intersection members, value => ∀ member ∈ members, Inhabits names member value
termination_by type => sizeOf type
decreasing_by
  all_goals first
    | exact sizeOf_lt_of_mem_children ‹_›
    | exact sizeOf_lt_of_mem_children (List.mem_map.mpr ⟨_, ‹_›, rfl⟩)
    | (have hle := sizeOf_le_of_mem_alternatives ‹_›
       simp only [named.sizeOf_spec, List.cons.sizeOf_spec]
       omega)
    | decreasing_tactic

/-- The texts of a template: its texts, and the texts of values of its types. -/
def Spells (names : String → Json → Prop) : List TemplatePart → List Char → Prop
  | [], text => text = []
  | .text value :: parts, text => ∃ rest, text = value.toList ++ rest ∧ Spells names parts rest
  | .type inner :: parts, text =>
    ∃ value written rest, Inhabits names inner value ∧ Json.written? value = some written
      ∧ text = written.toList ++ rest ∧ Spells names parts rest
termination_by parts => sizeOf parts
end

variable {names : String → Json → Prop} {value : Json}

/-! ### The meaning, case by case -/

section

attribute [local simp] Inhabits

theorem inhabits_keyword {k : Keyword} : Inhabits names (keyword k) value ↔ k.Holds value := by
  simp

theorem inhabits_literal {expected : Json} :
    Inhabits names (literal expected) value ↔ value = expected := by
  simp

theorem inhabits_record {key item : TypeExpr} :
    Inhabits names (named "Record" [key, item]) value
      ↔ ∃ fields, value = .object fields ∧ ∀ field ∈ fields, Inhabits names item field.2 := by
  simp

theorem inhabits_nonNullable {inner : TypeExpr} :
    Inhabits names (named "NonNullable" [inner]) value
      ↔ Inhabits names inner value ∧ value ≠ .null := by
  simp

theorem inhabits_exclude {base excluded : TypeExpr} :
    Inhabits names (named "Exclude" [base, excluded]) value
      ↔ ∃ part ∈ base.alternatives, Inhabits names part value
          ∧ ∃ other, Inhabits names part other ∧ ¬Inhabits names excluded other := by
  simp only [Inhabits, exists_prop]

theorem inhabits_name {name : String} :
    Inhabits names (TypeExpr.name name) value ↔ names name value := by
  simp [TypeExpr.name]

theorem inhabits_array {item : TypeExpr} :
    Inhabits names (array item) value
      ↔ ∃ elements, value = .array elements
        ∧ ∀ element ∈ elements, Inhabits names item element := by
  simp

theorem inhabits_object {members : List Member} :
    Inhabits names (object members) value
      ↔ ∃ fields, value = .object fields ∧ ∀ member ∈ members,
          match Json.lookup member.name fields with
          | some found => Inhabits names member.type found
          | none => member.isOptional = true := by
  simp

end

/-! ### Unions and intersections of lists -/

theorem inhabits_union {members : List TypeExpr} :
    Inhabits names (union members) value ↔ ∃ member ∈ members, Inhabits names member value := by
  simp only [Inhabits, exists_prop]

theorem inhabits_intersection {members : List TypeExpr} :
    Inhabits names (intersection members) value
      ↔ ∀ member ∈ members, Inhabits names member value := by
  rw [Inhabits]

theorem inhabits_alternatives {type : TypeExpr} :
    Inhabits names type value ↔ ∃ part ∈ type.alternatives, Inhabits names part value :=
  (Combination.union.exists_mem_operands_iff (P := fun type => Inhabits names type value)
    (fun _ => inhabits_union) type).symm

/-- The union of types has the values of all of them. -/
theorem inhabits_ofUnion {types : List TypeExpr} :
    Inhabits names (ofUnion types) value ↔ ∃ type ∈ types, Inhabits names type value :=
  Combination.union.of_iff (P := fun type => Inhabits names type value) (fun _ => inhabits_union)
    fun h => inhabits_keyword.mp h

/-- The intersection of types has the values that all of them have. -/
theorem inhabits_ofIntersection {types : List TypeExpr} :
    Inhabits names (ofIntersection types) value ↔ ∀ type ∈ types, Inhabits names type value := by
  -- an intersection lacks what one of its members lacks
  have hlacks : ¬Inhabits names (ofIntersection types) value
      ↔ ∃ type ∈ types, ¬Inhabits names type value :=
    Combination.intersection.of_iff (P := fun type => ¬Inhabits names type value)
      (fun members => inhabits_intersection.not.trans (by simp only [not_forall, exists_prop]))
      (not_not_intro (inhabits_keyword.mpr trivial))
  rw [← not_iff_not, hlacks]
  simp only [not_forall, exists_prop]

theorem inhabits_unknown : Inhabits names unknown value := inhabits_keyword.mpr trivial

/-- A union of no types is left out, and an open type takes its place. -/
theorem inhabits_getD_unionOf? {types : List TypeExpr} :
    Inhabits names ((unionOf? types).getD unknown) value
      ↔ types = [] ∨ ∃ type ∈ types, Inhabits names type value := by
  cases types with
  | nil => exact ⟨fun _ => .inl rfl, fun _ => inhabits_unknown⟩
  | cons first types =>
      have hunion : unionOf? (first :: types) = some (ofUnion (first :: types)) := rfl
      rw [hunion, Option.getD_some, inhabits_ofUnion]
      exact (or_iff_right (by simp)).symm

/-- A wrapped keyword keeps its values: no string and no number is null. -/
theorem inhabits_widen {type : TypeExpr} :
    Inhabits names type.widen value ↔ Inhabits names type value := by
  unfold widen
  split
  · refine inhabits_nonNullable.trans (and_iff_left_of_imp fun h => ?_)
    obtain ⟨text, rfl⟩ := inhabits_keyword.mp h
    simp
  · refine inhabits_nonNullable.trans (and_iff_left_of_imp fun h => ?_)
    obtain ⟨number, rfl⟩ := inhabits_keyword.mp h
    simp
  · rfl

/-! ### Types that are written alike -/

theorem alternatives_nullAsKeyword (type : TypeExpr) :
    type.nullAsKeyword.alternatives = type.alternatives.map nullAsKeyword := by
  cases type with
  | literal value => cases value <;> simp [nullAsKeyword, alternatives]
  | union members => rw [nullAsKeyword_union]; rfl
  | _ => simp [nullAsKeyword, alternatives]

/-- Only null is written in two ways. -/
theorem nullAsKeyword_eq_keyword_iff {k : Keyword} (hk : k ≠ .null) {type : TypeExpr} :
    type.nullAsKeyword = keyword k ↔ type = keyword k := by
  cases type with
  | literal value => cases value <;> simp [nullAsKeyword, hk.symm]
  | _ => simp [nullAsKeyword]

theorem nullAsKeyword_eq_literal_iff {value : Json} (hvalue : value ≠ .null) {type : TypeExpr} :
    type.nullAsKeyword = literal value ↔ type = literal value := by
  cases type with
  | literal other => cases other <;> simp [nullAsKeyword, hvalue.symm]
  | _ => simp [nullAsKeyword]

/-- What a name means: one of the types that are built in, or what its declaration says. -/
theorem named_cases (name : String) (args : List TypeExpr) :
    (∃ key item, name = "Record" ∧ args = [key, item])
      ∨ (∃ inner, name = "NonNullable" ∧ args = [inner])
      ∨ (∃ base excluded, name = "Exclude" ∧ args = [base, excluded])
      ∨ ∀ others : List TypeExpr, others.length = args.length →
          ∀ names value, Inhabits names (named name others) value ↔ names name value := by
  by_cases hrecord : name = "Record" ∧ args.length = 2
  · obtain ⟨key, item, hargs⟩ := List.length_eq_two.mp hrecord.2
    exact Or.inl ⟨key, item, hrecord.1, hargs⟩
  by_cases hnonNullable : name = "NonNullable" ∧ args.length = 1
  · obtain ⟨inner, hargs⟩ := List.length_eq_one_iff.mp hnonNullable.2
    exact Or.inr (Or.inl ⟨inner, hnonNullable.1, hargs⟩)
  by_cases hexclude : name = "Exclude" ∧ args.length = 2
  · obtain ⟨base, excluded, hargs⟩ := List.length_eq_two.mp hexclude.2
    exact Or.inr (Or.inr (Or.inl ⟨base, excluded, hexclude.1, hargs⟩))
  refine Or.inr (Or.inr (Or.inr fun others hlength names value => ?_))
  rw [Inhabits]
  · rintro key item hname rfl
    exact hrecord ⟨hname, hlength.symm⟩
  · rintro inner hname rfl
    exact hnonNullable ⟨hname, hlength.symm⟩
  · rintro base excluded hname rfl
    exact hexclude ⟨hname, hlength.symm⟩

theorem spells_nullAsKeyword {parts : List TemplatePart}
    (h : ∀ type, .type type ∈ parts → ∀ value,
      Inhabits names type.nullAsKeyword value ↔ Inhabits names type value) (text : List Char) :
    Spells names (parts.map TemplatePart.nullAsKeyword) text ↔ Spells names parts text := by
  induction parts generalizing text with
  | nil => rfl
  | cons part parts ih =>
      have htail := ih fun type htype => h type (List.mem_cons_of_mem _ htype)
      cases part with
      | text written => simp only [List.map_cons, TemplatePart.nullAsKeyword, Spells, htail]
      | type inner =>
          simp only [List.map_cons, TemplatePart.nullAsKeyword, Spells, htail,
            h inner List.mem_cons_self]

/-- One step of `inhabits_nullAsKeyword`. What is excluded is decided for each alternative, so the
alternatives of the types inside have to be known as well. -/
theorem inhabits_nullAsKeyword_step {type : TypeExpr}
    (ih : ∀ child ∈ type.children, ∀ value,
      (Inhabits names child.nullAsKeyword value ↔ Inhabits names child value)
        ∧ ∀ part ∈ child.alternatives,
            (Inhabits names part.nullAsKeyword value ↔ Inhabits names part value))
    (value : Json) : Inhabits names type.nullAsKeyword value ↔ Inhabits names type value := by
  cases type with
  | keyword k => rw [nullAsKeyword]
  | literal expected =>
      cases expected with
      | null => rw [nullAsKeyword, inhabits_keyword, inhabits_literal, Keyword.Holds]
      | _ => simp [nullAsKeyword]
  | named name args =>
      rw [nullAsKeyword, nullAsKeywordAll_eq]
      rcases named_cases name args with ⟨key, item, rfl, rfl⟩ | ⟨inner, rfl, rfl⟩
        | ⟨base, excluded, rfl, rfl⟩ | hname
      · have hitem := fun value => (ih item (by simp [children]) value).1
        simp only [List.map_cons, List.map_nil, inhabits_record, hitem]
      · have hinner := fun value => (ih inner (by simp [children]) value).1
        simp only [List.map_cons, List.map_nil, inhabits_nonNullable, hinner]
      · have hexcluded := fun value => (ih excluded (by simp [children]) value).1
        have hparts := fun value => (ih base (by simp [children]) value).2
        simp only [List.map_cons, List.map_nil, inhabits_exclude, hexcluded,
          alternatives_nullAsKeyword, List.mem_map, exists_exists_and_eq_and]
        refine exists_congr fun part => and_congr_right fun hpart => ?_
        rw [hparts value part hpart]
        refine and_congr_right fun _ => exists_congr fun other => ?_
        rw [hparts other part hpart]
      · rw [hname _ (List.length_map _), hname _ rfl]
  | template parts =>
      have hinner := fun inner hinner value => (ih inner (mem_children_template.mpr hinner) value).1
      rw [nullAsKeyword, nullAsKeywordParts_eq, Inhabits, Inhabits]
      simp only [spells_nullAsKeyword hinner]
  | array item =>
      have hitem := fun value => (ih item (by simp [children]) value).1
      rw [nullAsKeyword]
      simp only [inhabits_array, hitem]
  | object members =>
      have hmember := fun (member : Member) (hmember : member ∈ members) value =>
        (ih member.type (List.mem_map.mpr ⟨member, hmember, rfl⟩) value).1
      rw [nullAsKeyword, nullAsKeywordMembers_eq, inhabits_object, inhabits_object]
      simp only [List.forall_mem_map]
      refine exists_congr fun fields => and_congr_right fun _ =>
        forall₂_congr fun member hmem => ?_
      show (match Json.lookup member.name fields with | some _ => _ | none => _) ↔ _
      cases Json.lookup member.name fields with
      | none => rfl
      | some found => exact hmember member hmem found
  | union members =>
      have hmember := fun member hmember value => (ih member hmember value).1
      rw [nullAsKeyword_union, inhabits_union, inhabits_union]
      simp only [List.mem_map, exists_exists_and_eq_and]
      exact exists_congr fun member => and_congr_right fun hmem => hmember member hmem value
  | intersection members =>
      have hmember := fun member hmember value => (ih member hmember value).1
      rw [nullAsKeyword_intersection, inhabits_intersection, inhabits_intersection,
        List.forall_mem_map]
      exact forall₂_congr fun member hmem => hmember member hmem value

theorem inhabits_nullAsKeyword (type : TypeExpr) (value : Json) :
    Inhabits names type.nullAsKeyword value ↔ Inhabits names type value := by
  suffices h : ∀ value, (Inhabits names type.nullAsKeyword value ↔ Inhabits names type value)
      ∧ ∀ part ∈ type.alternatives,
          (Inhabits names part.nullAsKeyword value ↔ Inhabits names part value) from (h value).1
  induction type using TypeExpr.induction with
  | step type ih =>
      intro value
      have hself := inhabits_nullAsKeyword_step ih value
      refine ⟨hself, fun part hpart => ?_⟩
      unfold alternatives at hpart
      split at hpart
      · exact (ih part hpart value).1
      · rw [List.mem_singleton.mp hpart]
        exact hself

/-- **Types that are written alike have the same values.** -/
theorem inhabits_iff_of_render {a b : TypeExpr} (ha : Everywhere Legible a)
    (hb : Everywhere Legible b) (h : a.render = b.render) :
    Inhabits names a value ↔ Inhabits names b value :=
  iff_of_render (P := fun type => Inhabits names type value)
    (fun type => inhabits_nullAsKeyword type value) ha hb h

end TypeExpr
end ApiTypings
