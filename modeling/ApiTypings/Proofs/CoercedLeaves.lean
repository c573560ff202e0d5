/-
What is left of the scalars in the type of a coerced schema.

Where values travel as text, scalars are typed by the strings they are written as.  The scalars
that a type name stands for are: no bare `number` or `boolean` is left outside a template, at any
depth.  The values that an `enum` lists are not: they stay the literals they are.

So the literals of a type are the values that its schema lists, as far as the list takes part in
the type.  Which lists do is `Schema.Lists`: the base of a node is made of one of its keywords only,
and what is excluded or put into a dictionary counts only where there is a base.  For the other
direction equal texts have to stand for equal types, since one of them is dropped.
-/
import Mathlib
import ApiTypings.Proofs.WidenedUnions

namespace ApiTypings

open OpenApi

namespace OpenApi

namespace SchemaObject

/-- The kinds of which any may hold; a node without the keyword `type` names none. -/
def kinds (node : SchemaObject) : List String := node.type.elim [] TypeName.names

/-- The listed values, if the base of the node is its list. -/
def listed (node : SchemaObject) : List Json :=
  match node.allOf, node.oneOf, node.anyOf with
  | none, none, none => node.enum.getD []
  | _, _, _ => []

/-- The schemas that the keyword `type` makes objects and arrays of. -/
def typeSources (node : SchemaObject) : List Schema :=
  (if "object" ∈ node.kinds then (node.properties.getD []).map Prod.snd else [])
    ++ if "array" ∈ node.kinds then node.items.toList else []

/-- The schemas that the base of the node is made of. -/
def baseSources (node : SchemaObject) : List Schema :=
  match node.allOf, node.oneOf, node.anyOf, node.enum with
  | some members, _, _, _ => members
  | none, some members, _, _ => members
  | none, none, some members, _ => members
  | none, none, none, some _ => []
  | none, none, none, none => node.typeSources

/-- The schemas around the base: the excluded one and that of further properties. -/
def outerSources (node : SchemaObject) : List Schema :=
  (node.additionalProperties.bind AdditionalProperties.schema?).toList ++ node.not.toList

/-- The schemas that the type of the node is made of. -/
def sources (node : SchemaObject) : List Schema :=
  node.baseSources ++ if (TypeExpr.base? true node).isSome then node.outerSources else []

end SchemaObject

/-- A list that takes part in the type of the schema has the value. -/
inductive Schema.Lists (value : Json) : Schema → Prop
  | here {node : SchemaObject} (h : value ∈ node.listed) : Lists value (.inline node)
  | inside {node : SchemaObject} {source : Schema} (hsource : source ∈ node.sources)
      (h : Lists value source) : Lists value (.inline node)

end OpenApi

namespace TypeExpr

/-- `inner` is the type itself or stands inside it, and not in a template. -/
inductive Exposed (inner : TypeExpr) : TypeExpr → Prop
  | self : Exposed inner inner
  | inside {child outer : TypeExpr} (hplain : ∀ parts, outer ≠ template parts)
      (hchild : child ∈ outer.children) (h : Exposed inner child) : Exposed inner outer

/-- The scalars that are not written as text: literals, numbers and booleans. -/
inductive Leaf : TypeExpr → Prop
  | literal (value : Json) : Leaf (literal value)
  | number : Leaf (keyword .number)
  | boolean : Leaf (keyword .boolean)

variable {value : Json} {inner type : TypeExpr} {types : List TypeExpr}
  {members : List Schema} {node : SchemaObject}

/-! ### Where a leaf is exposed -/

theorem exposed_iff (hne : inner ≠ type) (hplain : ∀ parts, type ≠ template parts) :
    Exposed inner type ↔ ∃ child ∈ type.children, Exposed inner child := by
  constructor
  · intro h
    cases h with
    | self => exact absurd rfl hne
    | inside _ hchild h => exact ⟨_, hchild, h⟩
  · rintro ⟨child, hchild, h⟩
    exact .inside hplain hchild h

theorem exposed_iff_eq (hchildren : type.children = []) : Exposed inner type ↔ inner = type := by
  constructor
  · intro h
    cases h with
    | self => rfl
    | inside _ hchild _ => rw [hchildren] at hchild; cases hchild
  · rintro rfl
    exact .self

theorem exposed_keyword {k : Keyword} : Exposed inner (keyword k) ↔ inner = keyword k :=
  exposed_iff_eq rfl

theorem exposed_literal {other : Json} : Exposed inner (literal other) ↔ inner = literal other :=
  exposed_iff_eq rfl

/-- The leaf is left in the type of the schema. -/
def LeftIn (inner : TypeExpr) (schema : Schema) : Prop :=
  ∃ type ∈ lowered true schema, Exposed inner type

theorem exists_mem_filterMap_iff {α : Type} {f : α → Option TypeExpr} {items : List α}
    {P : TypeExpr → Prop} :
    (∃ type ∈ items.filterMap f, P type) ↔ ∃ item ∈ items, ∃ type ∈ f item, P type := by
  simp only [List.mem_filterMap]
  constructor
  · rintro ⟨type, ⟨item, hitem, htype⟩, h⟩
    exact ⟨item, hitem, type, htype, h⟩
  · rintro ⟨item, hitem, type, htype, h⟩
    exact ⟨type, ⟨item, hitem, htype⟩, h⟩

namespace Leaf

section

variable (h : Leaf inner)
include h

theorem not_exposed_keyword {k : Keyword} (hnumber : k ≠ .number) (hboolean : k ≠ .boolean) :
    ¬Exposed inner (keyword k) := by
  intro hexposed
  rw [exposed_keyword.mp hexposed] at h
  cases h with
  | number => exact hnumber rfl
  | boolean => exact hboolean rfl

theorem not_exposed_template (parts : List TemplatePart) : ¬Exposed inner (template parts) := by
  intro hexposed
  cases hexposed with
  | self => cases h
  | inside hplain _ _ => exact hplain parts rfl

theorem exposed_named {name : String} {args : List TypeExpr} :
    Exposed inner (named name args) ↔ ∃ arg ∈ args, Exposed inner arg :=
  exposed_iff (by rintro rfl; cases h) (by simp)

theorem exposed_array {item : TypeExpr} : Exposed inner (array item) ↔ Exposed inner item :=
  (exposed_iff (by rintro rfl; cases h) (by simp)).trans (by simp [children])

theorem exposed_object {members : List Member} :
    Exposed inner (object members) ↔ ∃ member ∈ members, Exposed inner member.type :=
  (exposed_iff (by rintro rfl; cases h) (by simp)).trans (by simp [children])

theorem exposed_union {members : List TypeExpr} :
    Exposed inner (union members) ↔ ∃ member ∈ members, Exposed inner member :=
  exposed_iff (by rintro rfl; cases h) (by simp)

theorem exposed_intersection {members : List TypeExpr} :
    Exposed inner (intersection members) ↔ ∃ member ∈ members, Exposed inner member :=
  exposed_iff (by rintro rfl; cases h) (by simp)

theorem exposed_record {item : TypeExpr} : Exposed inner (record item) ↔ Exposed inner item := by
  simp [record, h.exposed_named, string, h.not_exposed_keyword]

theorem exposed_ofUnion : Exposed inner (ofUnion types) ↔ ∃ type ∈ types, Exposed inner type :=
  Combination.union.of_iff (fun _ => h.exposed_union)
    (h.not_exposed_keyword (by simp) (by simp))

theorem exposed_ofIntersection :
    Exposed inner (ofIntersection types) ↔ ∃ type ∈ types, Exposed inner type :=
  Combination.intersection.of_iff (fun _ => h.exposed_intersection)
    (h.not_exposed_keyword (by simp) (by simp))

theorem exposed_unionOf? :
    (∃ type ∈ unionOf? types, Exposed inner type) ↔ ∃ type ∈ types, Exposed inner type := by
  cases types with
  | nil => simp [unionOf?]
  | cons first types => simp [unionOf?, h.exposed_ofUnion]

theorem exposed_intersectionOf? :
    (∃ type ∈ intersectionOf? types, Exposed inner type) ↔ ∃ type ∈ types, Exposed inner type := by
  cases types with
  | nil => simp [intersectionOf?]
  | cons first types => simp [intersectionOf?, h.exposed_ofIntersection]

theorem exposed_getD {type? : Option TypeExpr} :
    Exposed inner (type?.getD unknown) ↔ ∃ type ∈ type?, Exposed inner type := by
  cases type? with
  | none => simp [unknown, h.not_exposed_keyword]
  | some type => simp

/-- Wrapping a number keeps it where it is seen. -/
theorem exposed_widen : Exposed inner type.widen ↔ Exposed inner type := by
  unfold widen
  split
  · simp [h.exposed_named, string]
  · simp [h.exposed_named, TypeExpr.number]
  · rfl

end

/-! ### What the keywords of a node expose -/

variable (h : Leaf inner)
include h

theorem exposed_oneOfTypes :
    (∃ type ∈ oneOfTypes true members, Exposed inner type)
      ↔ ∃ member ∈ members, ∃ type ∈ lowered true member, Exposed inner type := by
  simp only [mem_oneOfTypes]
  constructor
  · rintro ⟨_, ⟨member, hmember, type, htype, rfl⟩, hexposed⟩
    refine ⟨member, hmember, type, htype, ?_⟩
    split at hexposed
    · exact hexposed
    · exact h.exposed_widen.mp hexposed
  · rintro ⟨member, hmember, type, htype, hexposed⟩
    refine ⟨_, ⟨member, hmember, type, htype, rfl⟩, ?_⟩
    split
    · exact hexposed
    · exact h.exposed_widen.mpr hexposed

theorem exposed_anyOfTypes :
    (∃ type ∈ anyOfTypes true members, Exposed inner type)
      ↔ ∃ member ∈ members, ∃ type ∈ lowered true member, Exposed inner type := by
  unfold anyOfTypes
  split
  · rw [List.filterMap_map, Function.id_comp]
    exact exists_mem_filterMap_iff
  · exact h.exposed_oneOfTypes

theorem exposed_objectOf {required : List String} {properties : Option (List (String × Schema))} :
    Exposed inner (objectOf true required properties)
      ↔ ∃ property ∈ properties.getD [], ∃ type ∈ lowered true property.2, Exposed inner type := by
  match properties with
  | none => simp [objectOf, anyRecord, h.exposed_record, string, h.not_exposed_keyword]
  | some [] => simp [objectOf, h.exposed_record, never, h.not_exposed_keyword]
  | some (property :: properties) =>
      simp only [objectOf, h.exposed_object, List.mem_map, exists_exists_and_eq_and, loweredMember,
        h.exposed_getD, Option.getD_some]

theorem exposed_arrayOf {item : Option TypeExpr} :
    Exposed inner (arrayOf true item) ↔ ∃ type ∈ item, Exposed inner type := by
  rw [arrayOf, h.exposed_array]
  cases item with
  | none => simp [string, h.not_exposed_keyword]
  | some type => simp

/-- A scalar is written as text and exposes nothing; objects and arrays do what they are made of. -/
theorem exposed_nameType? {object array : TypeExpr} {name : String} :
    (∃ type ∈ nameType? true object array name, Exposed inner type)
      ↔ name = "object" ∧ Exposed inner object ∨ name = "array" ∧ Exposed inner array := by
  have hscalar : ∀ k, ¬Exposed inner (scalar true (keyword k)) :=
    fun k => h.not_exposed_template [.type (keyword k)]
  have hstring : ¬Exposed inner string := h.not_exposed_keyword (by simp) (by simp)
  unfold nameType? ofTypeName
  split
  · simp [TypeExpr.boolean, hscalar]
  · simp [hstring]
  · simp [TypeExpr.number, hscalar]
  · simp [TypeExpr.number, hscalar]
  · simp
  · simp
  · simp [null, hscalar]
  · rename_i hobject harray _
    refine iff_of_false (by simp) ?_
    rintro (⟨hname, -⟩ | ⟨hname, -⟩)
    · exact hobject hname
    · exact harray hname

theorem exposed_keywordType? {object array : TypeExpr} {keyword : Option TypeName} :
    (∃ type ∈ keywordType? true object array keyword, Exposed inner type)
      ↔ "object" ∈ keyword.elim [] TypeName.names ∧ Exposed inner object
        ∨ "array" ∈ keyword.elim [] TypeName.names ∧ Exposed inner array := by
  match keyword with
  | none => simp [keywordType?]
  | some (.single name) =>
      rw [keywordType?, h.exposed_nameType?]
      simp [TypeName.names, eq_comm]
  | some (.several names) =>
      rw [keywordType?, h.exposed_unionOf?, exists_mem_filterMap_iff]
      simp only [h.exposed_nameType?, TypeName.names, Option.elim_some]
      simp [and_or_left, exists_or]

end Leaf

/-! ### What a node leaves -/

section

variable (h : Leaf inner)
include h

theorem exposed_type? :
    (∃ type ∈ keywordType? true (objectOf true node.required node.properties)
        (arrayOf true (node.items.bind (lowered true))) node.type, Exposed inner type)
      ↔ ∃ source ∈ node.typeSources, LeftIn inner source := by
  have hproperties : (∃ property ∈ node.properties.getD [],
      ∃ type ∈ lowered true property.2, Exposed inner type)
        ↔ ∃ source ∈ (node.properties.getD []).map Prod.snd, LeftIn inner source := by
    simp only [List.mem_map, exists_exists_and_eq_and, LeftIn]
  have hitems : (∃ type ∈ node.items.bind (lowered true), Exposed inner type)
      ↔ ∃ source ∈ node.items.toList, LeftIn inner source := by
    cases node.items <;> simp [LeftIn]
  rw [h.exposed_keywordType?, h.exposed_objectOf, h.exposed_arrayOf, hproperties, hitems,
    SchemaObject.typeSources]
  show "object" ∈ node.kinds ∧ _ ∨ "array" ∈ node.kinds ∧ _ ↔ _
  simp only [List.mem_append, or_and_right, exists_or]
  refine or_congr ?_ ?_ <;> split <;> simp [*]

theorem exposed_base? :
    ((∃ type ∈ base? true node, Exposed inner type) →
        (∃ value ∈ node.listed, inner = literal value)
          ∨ ∃ source ∈ node.baseSources, LeftIn inner source)
      ∧ ((∀ members, node.anyOf = some members →
            (∃ type ∈ anyOfTypes true members, Exposed inner type) →
            ∃ type ∈ distinctTexts [] (anyOfTypes true members), Exposed inner type) →
          ((∃ value ∈ node.listed, inner = literal value)
            ∨ ∃ source ∈ node.baseSources, LeftIn inner source) →
          ∃ type ∈ base? true node, Exposed inner type) := by
  -- only `anyOf` may drop a type, so the other keywords give both directions at once
  have of_iff : ∀ {made left distinct : Prop}, (made ↔ left) →
      (made → left) ∧ (distinct → left → made) := fun h => ⟨h.mp, fun _ => h.mpr⟩
  match hall : node.allOf, hone : node.oneOf, hany : node.anyOf, henum : node.enum with
  | some members, _, _, _ =>
      simp only [base?, SchemaObject.listed, SchemaObject.baseSources, hall]
      refine of_iff ?_
      rw [h.exposed_intersectionOf?, exists_mem_filterMap_iff]
      simp [LeftIn]
  | none, some members, _, _ =>
      simp only [base?, SchemaObject.listed, SchemaObject.baseSources, hall, hone]
      refine of_iff ?_
      rw [h.exposed_unionOf?, h.exposed_oneOfTypes]
      simp [LeftIn]
  | none, none, some members, _ =>
      have hmembers : (∃ type ∈ anyOfTypes true members, Exposed inner type)
          ↔ (∃ value ∈ ([] : List Json), inner = literal value)
            ∨ ∃ source ∈ members, LeftIn inner source := by
        rw [h.exposed_anyOfTypes]
        simp [LeftIn]
      simp only [base?, SchemaObject.listed, SchemaObject.baseSources, hall, hone, hany]
      rw [h.exposed_unionOf?, ← hmembers]
      constructor
      · rintro ⟨type, htype, hexposed⟩
        exact ⟨type, mem_of_mem_distinctTexts htype, hexposed⟩
      · exact fun hdistinct => hdistinct members rfl
  | none, none, none, some values =>
      simp only [base?, SchemaObject.listed, SchemaObject.baseSources, hall, hone, hany, henum]
      refine of_iff ?_
      simp [h.exposed_ofUnion, exposed_literal]
  | none, none, none, none =>
      simp only [base?, SchemaObject.listed, SchemaObject.baseSources, hall, hone, hany, henum]
      refine of_iff ?_
      rw [exposed_type? h]
      simp

theorem exposed_withDictionary {additional : Option (AdditionalProperties Schema)}
    {base : Option TypeExpr} :
    (∃ type ∈ withDictionary (additional.bind (additionalType? true)) base, Exposed inner type)
      ↔ (∃ type ∈ base, Exposed inner type)
        ∨ base.isSome
          ∧ ∃ source ∈ additional.bind AdditionalProperties.schema?, LeftIn inner source := by
  have hunknown : ¬Exposed inner unknown := h.not_exposed_keyword (by simp) (by simp)
  rcases additional with _ | ⟨_ | _⟩ | schema <;> cases base <;>
    simp [withDictionary, additionalType?, AdditionalProperties.schema?, h.exposed_ofIntersection,
      h.exposed_record, h.exposed_getD, hunknown, LeftIn]

theorem exposed_withoutType {excluded : Option Schema} {base : Option TypeExpr} :
    (∃ type ∈ withoutType (excluded.bind (lowered true)) base, Exposed inner type)
      ↔ (∃ type ∈ base, Exposed inner type)
        ∨ base.isSome ∧ ∃ source ∈ excluded, LeftIn inner source := by
  cases excluded with
  | none => cases base <;> simp [withoutType]
  | some schema =>
      cases htype : lowered true schema with
      | none => cases base <;> simp [withoutType, LeftIn, htype]
      | some type => cases base <;> simp [withoutType, LeftIn, htype, h.exposed_named]

theorem exposed_withNull {nullable : Option Bool} {base : Option TypeExpr} :
    (∃ type ∈ withNull nullable base, Exposed inner type) ↔ ∃ type ∈ base, Exposed inner type := by
  unfold withNull
  split
  · cases base <;> simp [null, h.not_exposed_keyword, h.exposed_ofUnion]
  · rfl

/-- The keywords around the base add what their schemas leave, if there is a base. -/
theorem leftIn_inline_iff : LeftIn inner (.inline node)
    ↔ (∃ type ∈ base? true node, Exposed inner type)
      ∨ (base? true node).isSome ∧ ∃ source ∈ node.outerSources, LeftIn inner source := by
  have hbase : ∀ values, (withDictionary values (base? true node)).isSome
      = (base? true node).isSome := by
    intro values
    cases values <;> cases base? true node <;> rfl
  rw [LeftIn, lowered_inline, exposed_withNull h, exposed_withoutType h, exposed_withDictionary h,
    hbase, or_assoc, ← and_or_left, SchemaObject.outerSources]
  simp only [List.mem_append, Option.mem_toList, Option.mem_def, or_and_right, exists_or]

end

/-! ### Every leaf is listed -/

theorem mem_children_of_mem_baseSources {source : Schema} (hsource : source ∈ node.baseSources) :
    source ∈ node.children := by
  unfold SchemaObject.baseSources at hsource
  split at hsource
  · exact node.mem_children_allOf ‹_› hsource
  · exact node.mem_children_oneOf ‹_› hsource
  · exact node.mem_children_anyOf ‹_› hsource
  · cases hsource
  · rw [SchemaObject.typeSources, List.mem_append] at hsource
    rcases hsource with hsource | hsource
    · split at hsource
      · obtain ⟨⟨key, schema⟩, hproperty, rfl⟩ := List.mem_map.mp hsource
        cases hproperties : node.properties with
        | none => rw [hproperties] at hproperty; cases hproperty
        | some properties =>
            rw [hproperties] at hproperty
            exact node.mem_children_properties hproperties hproperty
      · cases hsource
    · split at hsource
      · exact node.mem_children_items (Option.mem_toList.mp hsource)
      · cases hsource

theorem mem_children_of_mem_outerSources {source : Schema} (hsource : source ∈ node.outerSources) :
    source ∈ node.children := by
  rw [SchemaObject.outerSources, List.mem_append, Option.mem_toList, Option.mem_toList] at hsource
  rcases hsource with hsource | hsource
  · obtain ⟨additional, hadditional, hschema⟩ := Option.bind_eq_some_iff.mp hsource
    exact node.mem_children_additional hadditional hschema
  · exact node.mem_children_not hsource

/-- What is left in the type of a schema is listed by it. -/
theorem lists_of_leftIn (hleaf : Leaf inner) {schema : Schema} (h : LeftIn inner schema) :
    ∃ value, inner = literal value ∧ schema.Lists value := by
  induction schema using Schema.induction with
  | step schema ih =>
      cases schema with
      | reference pointer =>
          obtain ⟨type, htype, hexposed⟩ := h
          obtain rfl := Option.some.inj htype
          obtain ⟨arg, harg, -⟩ := hleaf.exposed_named.mp hexposed
          cases harg
      | inline node =>
          have hsource : ∀ source ∈ node.sources, LeftIn inner source →
              ∃ value, inner = literal value ∧ Schema.Lists value (.inline node) := by
            intro source hsource hleft
            have hchild : source ∈ node.children := by
              rcases List.mem_append.mp hsource with hbase | houter
              · exact mem_children_of_mem_baseSources hbase
              · split at houter
                · exact mem_children_of_mem_outerSources houter
                · cases houter
            obtain ⟨value, rfl, hlists⟩ := ih source hchild hleft
            exact ⟨value, rfl, .inside hsource hlists⟩
          rcases (leftIn_inline_iff hleaf).mp h with hbase | ⟨hsome, source, houter, hleft⟩
          · rcases (exposed_base? hleaf).1 hbase
              with ⟨value, hvalue, rfl⟩ | ⟨source, hbase, hleft⟩
            · exact ⟨value, rfl, .here hvalue⟩
            · exact hsource source (List.mem_append_left _ hbase) hleft
          · refine hsource source (List.mem_append_right _ ?_) hleft
            rwa [if_pos hsome]

/-! ### Every listed value is left -/

/-- Types that are written alike expose the same literals, except for null. -/
theorem exposed_nullAsKeyword (hvalue : value ≠ .null) :
    Exposed (literal value) type.nullAsKeyword ↔ Exposed (literal value) type := by
  have h : Leaf (literal value) := .literal value
  have hmembers {types : List TypeExpr}
      (ih : ∀ child ∈ types, Exposed (literal value) child.nullAsKeyword
        ↔ Exposed (literal value) child) :
      (∃ child ∈ types.map nullAsKeyword, Exposed (literal value) child)
        ↔ ∃ child ∈ types, Exposed (literal value) child := by
    simp only [List.mem_map, exists_exists_and_eq_and]
    exact exists_congr fun child => and_congr_right (ih child)
  induction type using TypeExpr.induction with
  | step type ih =>
      cases type with
      | keyword k => rw [nullAsKeyword]
      | literal other =>
          cases other <;> simp [nullAsKeyword, exposed_keyword, exposed_literal, hvalue]
      | named name args =>
          rw [nullAsKeyword, nullAsKeywordAll_eq, h.exposed_named, h.exposed_named]
          exact hmembers ih
      | template parts =>
          rw [nullAsKeyword]
          exact iff_of_false (h.not_exposed_template _) (h.not_exposed_template _)
      | array item =>
          rw [nullAsKeyword, h.exposed_array, h.exposed_array]
          exact ih item (List.mem_singleton_self item)
      | object members =>
          rw [nullAsKeyword, nullAsKeywordMembers_eq, h.exposed_object, h.exposed_object]
          simp only [List.mem_map, exists_exists_and_eq_and]
          exact exists_congr fun member => and_congr_right fun hmember =>
            ih member.type (List.mem_map_of_mem hmember)
      | union members =>
          rw [nullAsKeyword_union, h.exposed_union, h.exposed_union]
          exact hmembers ih
      | intersection members =>
          rw [nullAsKeyword_intersection, h.exposed_intersection, h.exposed_intersection]
          exact hmembers ih

/-- A listed value is left, where equal texts stand for equal types. -/
theorem leftIn_of_lists (hvalue : value ≠ .null) {schema : Schema}
    (hnames : ∀ pointer, Schema.Occurs (.reference pointer) schema →
      Text.isIdentifier (referenceName pointer) = true)
    (h : schema.Lists value) : LeftIn (literal value) schema := by
  have hleaf : Leaf (literal value) := .literal value
  -- the base of a node leaves what the schemas leave that it is made of
  have hbase : ∀ {node : SchemaObject}, (∀ pointer,
      Schema.Occurs (.reference pointer) (.inline node) →
        Text.isIdentifier (referenceName pointer) = true) →
      ((∃ other ∈ node.listed, literal value = literal other)
        ∨ ∃ source ∈ node.baseSources, LeftIn (literal value) source) →
      LeftIn (literal value) (.inline node) := by
    intro node hnames hparts
    refine (leftIn_inline_iff hleaf).mpr (.inl ((exposed_base? hleaf).2 ?_ hparts))
    intro members hany
    have hlegible : ∀ type ∈ anyOfTypes true members, Everywhere Legible type :=
      legible_anyOfTypes
        (fun pointer hpointer => isTypeName_referenceName (hnames pointer hpointer)) hany
    exact (exists_mem_distinctTexts_iff (iff_of_render fun _ => exposed_nullAsKeyword hvalue)
      hlegible).mpr
  induction h with
  | here hlisted => exact hbase hnames (.inl ⟨value, hlisted, rfl⟩)
  | inside hsource _ ih =>
      rcases List.mem_append.mp hsource with hsource | hsource
      · have hleft := ih fun pointer hpointer =>
          hnames pointer (.inside (mem_children_of_mem_baseSources hsource) hpointer)
        exact hbase hnames (.inr ⟨_, hsource, hleft⟩)
      · split at hsource
        · rename_i hsome
          have hleft := ih fun pointer hpointer =>
            hnames pointer (.inside (mem_children_of_mem_outerSources hsource) hpointer)
          exact (leftIn_inline_iff hleaf).mpr (.inr ⟨hsome, _, hsource, hleft⟩)
        · cases hsource

/-! ### The leaves of a coerced type -/

/-- **The leaves of a coerced type are what its schema lists.** At no depth is there a number or a
boolean outside a template, and every literal is listed by the schema.  But a listed value is left
as it is, a text or not; null may be written as the keyword. -/
theorem exposed_of_coerced (schema : Schema) (location : String) :
    ∀ type ∈ (Inspect.runAt location (ofSchema true schema)).1,
      ¬Exposed number type ∧ ¬Exposed boolean type
        ∧ (∀ value, Exposed (literal value) type → schema.Lists value)
        ∧ ((∀ pointer, Schema.Occurs (.reference pointer) schema →
              Text.isIdentifier (referenceName pointer) = true) →
            ∀ value, value ≠ .null → schema.Lists value → Exposed (literal value) type) := by
  intro type htype
  rw [(appends_ofSchema schema).runAt_eq] at htype
  have hlists : ∀ {inner}, Leaf inner → Exposed inner type →
      ∃ value, inner = literal value ∧ schema.Lists value :=
    fun hleaf hexposed => lists_of_leftIn hleaf ⟨type, htype, hexposed⟩
  refine ⟨fun h => ?_, fun h => ?_, fun value h => ?_, fun hnames value hvalue h => ?_⟩
  · obtain ⟨_, heq, -⟩ := hlists .number h
    cases heq
  · obtain ⟨_, heq, -⟩ := hlists .boolean h
    cases heq
  · obtain ⟨_, heq, hlisted⟩ := hlists (.literal value) h
    exact literal.inj heq ▸ hlisted
  · obtain ⟨found, hfound, hexposed⟩ := leftIn_of_lists hvalue hnames h
    obtain rfl : found = type := Option.some.inj (hfound.symm.trans htype)
    exact hexposed

/-- A flag, or one of two listed values. -/
theorem exposed_of_coerced_flag_or_listed :
    let flag : Schema := .inline { type := some (.single "boolean") }
    let listed : Schema := .inline { enum := some [.ofNat 1, .string "all"] }
    let item : Schema := .inline { oneOf := some [flag, listed] }
    let schema : Schema := .inline { type := some (.single "array"), items := some item }
    let type := array (union [stringified boolean, literal (.ofNat 1), literal (.string "all")])
    type ∈ (Inspect.runAt "GET /pets" (ofSchema true schema)).1
      ∧ ¬Exposed number type ∧ ¬Exposed boolean type
      ∧ ∀ value, Exposed (literal value) type → schema.Lists value := by
  intro flag listed item schema type
  have htype : type ∈ (Inspect.runAt "GET /pets" (ofSchema true schema)).1 := rfl
  obtain ⟨hnumber, hboolean, hlists, -⟩ := exposed_of_coerced schema "GET /pets" type htype
  exact ⟨htype, hnumber, hboolean, hlists⟩

/-- A number that is listed is no text, while one that is named is written as text. -/
theorem exposed_listed_number :
    (∃ type ∈ (Inspect.runAt "GET /pets" (ofSchema true (.inline { enum := some [.ofNat 1] }))).1,
        ∃ value, Exposed (literal value) type ∧ value ≠ .null ∧ ∀ text, value ≠ .string text)
      ∧ (Inspect.runAt "GET /pets"
          (ofSchema true (.inline { type := some (.single "number") }))).1
        = some (stringified number) :=
  ⟨⟨literal (.ofNat 1), rfl, .ofNat 1, .self, nofun, nofun⟩, rfl⟩

end TypeExpr
end ApiTypings
