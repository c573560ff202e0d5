/-
Induction over the types of schemas.

Many properties of lowered types are shown alike: a constructor keeps the property, so
everything that is built has it.  `lowered_induction` is that argument, made once.  It asks
of each way in which a type is built that it keeps the property, and for references and
objects only of those that stand in the schema.
-/
import Mathlib
import ApiTypings.Proofs.Lowering

namespace ApiTypings.TypeExpr

open OpenApi Inspect

variable {coerce : Bool}

/-- Everything that the lowering of `schema` does to types keeps `P`. -/
structure Keeps (coerce : Bool) (P : TypeExpr → Prop) (schema : Schema) : Prop where
  keyword : ∀ k, coerce = false ∨ (k ≠ .number ∧ k ≠ .boolean) → P (keyword k)
  /-- scalars that travel as text -/
  stringified : coerce = true → ∀ k, P (stringified (.keyword k))
  literal : ∀ value, P (literal value)
  applied : ∀ name ∈ ["Record", "NonNullable", "Exclude"], ∀ args, (∀ arg ∈ args, P arg) →
    P (named name args)
  array : ∀ item, P item → P (array item)
  ofUnion : ∀ types, (∀ type ∈ types, P type) → P (ofUnion types)
  ofIntersection : ∀ types, (∀ type ∈ types, P type) → P (ofIntersection types)
  reference : ∀ pointer, Schema.Occurs (.reference pointer) schema →
    P (name (referenceName pointer))
  object : ∀ node properties, Schema.Occurs (.inline node) schema →
    node.properties = some properties → properties ≠ [] →
    (∀ member ∈ properties.map (loweredMember coerce node.required), P member.type) →
    P (object (properties.map (loweredMember coerce node.required)))

namespace Keeps

variable {P : TypeExpr → Prop} {schema : Schema} {node : SchemaObject}

theorem child {child : Schema} (h : Keeps coerce P schema) (hchild : child ∈ schema.children) :
    Keeps coerce P child :=
  { h with
    reference := fun pointer hpointer => h.reference pointer (.inside hchild hpointer)
    object := fun node properties hnode => h.object node properties (.inside hchild hnode) }

theorem record (h : Keeps coerce P schema) {value : TypeExpr} (hvalue : P value) :
    P (record value) := by
  refine h.applied "Record" (by simp) _ ?_
  intro arg harg
  rcases List.mem_pair.mp harg with rfl | rfl
  · exact h.keyword _ (Or.inr ⟨by simp, by simp⟩)
  · exact hvalue

theorem widen (h : Keeps coerce P schema) {type : TypeExpr} (htype : P type) :
    P (widen type) := by
  unfold TypeExpr.widen
  split
  · exact h.applied "NonNullable" (by simp) _ fun _ harg => List.mem_singleton.mp harg ▸ htype
  · exact h.applied "NonNullable" (by simp) _ fun _ harg => List.mem_singleton.mp harg ▸ htype
  · exact htype

theorem widenAll (h : Keeps coerce P schema) {types : List (Option TypeExpr)}
    (htypes : ∀ type, some type ∈ types → P type) :
    ∀ type ∈ (widenAll types).filterMap id, P type := by
  intro type htype
  obtain ⟨_, hmem, rfl⟩ := List.mem_filterMap.mp htype
  unfold TypeExpr.widenAll at hmem
  split at hmem
  · exact htypes type hmem
  · obtain ⟨original, horiginal, heq⟩ := List.mem_map.mp hmem
    obtain ⟨inner, rfl, rfl⟩ := Option.map_eq_some_iff.mp heq
    exact h.widen (htypes inner horiginal)

theorem anyOfTypes (h : Keeps coerce P schema) {members : List Schema}
    (hmembers : ∀ type, some type ∈ members.map (lowered coerce) → P type) :
    ∀ type ∈ anyOfTypes coerce members, P type := by
  intro type htype
  unfold TypeExpr.anyOfTypes at htype
  split at htype
  · obtain ⟨_, hmem, rfl⟩ := List.mem_filterMap.mp htype
    exact hmembers type hmem
  · exact h.widenAll hmembers type htype

theorem scalar (h : Keeps coerce P schema) (k : Keyword) : P (scalar coerce (.keyword k)) := by
  cases hcoerce : coerce with
  | false => exact h.keyword k (Or.inl hcoerce)
  | true => exact h.stringified hcoerce k

/-- What stands for a type that is open, a text where values travel as text. -/
theorem openType (h : Keeps coerce P schema) : P (if coerce then string else unknown) := by
  split
  · exact h.keyword _ (Or.inr ⟨by simp, by simp⟩)
  · exact h.keyword _ (Or.inr ⟨by simp, by simp⟩)

theorem nameType? (h : Keeps coerce P schema) {object array : TypeExpr} (hobject : P object)
    (harray : P array) (name : String) : ∀ type ∈ nameType? coerce object array name, P type := by
  intro type htype
  unfold TypeExpr.nameType? ofTypeName at htype
  split at htype <;> cases htype
  · exact h.scalar _
  · exact h.keyword _ (Or.inr ⟨by simp, by simp⟩)
  · exact h.scalar _
  · exact h.scalar _
  · exact hobject
  · exact harray
  · exact h.scalar _

theorem unionOf? (h : Keeps coerce P schema) {types : List TypeExpr}
    (htypes : ∀ type ∈ types, P type) : ∀ type ∈ unionOf? types, P type := by
  intro type htype
  unfold TypeExpr.unionOf? at htype
  split at htype <;> cases htype
  exact h.ofUnion types htypes

theorem intersectionOf? (h : Keeps coerce P schema) {types : List TypeExpr}
    (htypes : ∀ type ∈ types, P type) : ∀ type ∈ intersectionOf? types, P type := by
  intro type htype
  unfold TypeExpr.intersectionOf? at htype
  split at htype <;> cases htype
  exact h.ofIntersection types htypes

theorem keywordType? (h : Keeps coerce P schema) {object array : TypeExpr} (hobject : P object)
    (harray : P array) (type : Option TypeName) :
    ∀ result ∈ keywordType? coerce object array type, P result := by
  intro result hresult
  match type with
  | some (.single name) => exact h.nameType? hobject harray name result hresult
  | some (.several names) =>
      refine h.unionOf? ?_ result hresult
      intro inner hinner
      obtain ⟨name, -, hname⟩ := List.mem_filterMap.mp hinner
      exact h.nameType? hobject harray name inner hname

end Keeps

theorem mem_of_mem_distinctTexts {seen : List String} {types : List TypeExpr} {type : TypeExpr}
    (h : type ∈ distinctTexts seen types) : type ∈ types := by
  induction types generalizing seen with
  | nil => cases h
  | cons first types ih =>
      rw [distinctTexts] at h
      split at h
      · exact List.mem_cons_of_mem _ (ih h)
      · rcases List.mem_cons.mp h with rfl | h
        · exact List.mem_cons_self
        · exact List.mem_cons_of_mem _ (ih h)

namespace Keeps

variable {P : TypeExpr → Prop} {node : SchemaObject}

theorem objectOf (h : Keeps coerce P (.inline node))
    (hchildren : ∀ child ∈ node.children, ∀ type ∈ lowered coerce child, P type) :
    P (objectOf coerce node.required node.properties) := by
  cases hproperties : node.properties with
  | none => exact h.record h.openType
  | some properties =>
      cases properties with
      | nil => exact h.record (h.keyword _ (Or.inr ⟨by simp, by simp⟩))
      | cons property properties =>
          refine h.object node _ .self hproperties (by simp) ?_
          intro member hmember
          obtain ⟨⟨key, schema⟩, hproperty, rfl⟩ := List.mem_map.mp hmember
          cases htype : lowered coerce schema with
          | none =>
              rw [loweredMember, htype]
              exact h.keyword _ (Or.inr ⟨by simp, by simp⟩)
          | some type =>
              rw [loweredMember, htype]
              exact hchildren schema (node.mem_children_properties hproperties hproperty) type htype

theorem base? (h : Keeps coerce P (.inline node))
    (hchildren : ∀ child ∈ node.children, ∀ type ∈ lowered coerce child, P type) :
    ∀ type ∈ base? coerce node, P type := by
  have hlist : ∀ {members : List Schema}, (∀ s ∈ members, s ∈ node.children) →
      ∀ type, some type ∈ members.map (lowered coerce) → P type := by
    intro members hmembers type htype
    obtain ⟨member, hmember, hlowered⟩ := List.mem_map.mp htype
    exact hchildren member (hmembers member hmember) type hlowered
  unfold TypeExpr.base?
  split
  · rename_i members _ _ _ hall
    refine h.intersectionOf? fun type htype => ?_
    obtain ⟨member, hmember, hlowered⟩ := List.mem_filterMap.mp htype
    exact hchildren member (node.mem_children_allOf hall hmember) type hlowered
  · rename_i members _ _ _ hone
    exact h.unionOf? (h.widenAll (hlist fun s hs => node.mem_children_oneOf hone hs))
  · rename_i members _ _ _ hany
    have hmembers := hlist fun s hs => node.mem_children_anyOf hany hs
    exact h.unionOf? fun type htype =>
      h.anyOfTypes hmembers type (mem_of_mem_distinctTexts htype)
  · rename_i values _ _ _ _
    intro type htype
    cases htype
    refine h.ofUnion _ fun type htype => ?_
    obtain ⟨value, -, rfl⟩ := List.mem_map.mp htype
    exact h.literal value
  · refine h.keywordType? (h.objectOf hchildren) (h.array _ ?_) _
    cases hitem : node.items.bind (lowered coerce) with
    | none => exact h.openType
    | some item =>
        obtain ⟨items, hitems, hlowered⟩ := Option.bind_eq_some_iff.mp hitem
        exact hchildren items (node.mem_children_items hitems) item hlowered

theorem withDictionary (h : Keeps coerce P (.inline node))
    (hchildren : ∀ child ∈ node.children, ∀ type ∈ lowered coerce child, P type)
    {base : Option TypeExpr} (hbase : ∀ type ∈ base, P type) :
    ∀ type ∈ withDictionary (node.additionalProperties.bind (additionalType? coerce)) base,
      P type := by
  intro type htype
  unfold TypeExpr.withDictionary at htype
  split at htype
  · rename_i values base hvalues
    cases htype
    refine h.ofIntersection _ fun type htype => ?_
    rcases List.mem_pair.mp htype with rfl | rfl
    · exact hbase _ rfl
    · refine h.record ?_
      cases values with
      | none => exact h.keyword _ (Or.inr ⟨by simp, by simp⟩)
      | some value =>
          obtain ⟨additional, hadditional, hlowered⟩ := Option.bind_eq_some_iff.mp hvalues
          cases additional with
          | flag allowed => cases allowed <;> cases hlowered
          | schema schema =>
              exact hchildren schema (node.mem_children_additional hadditional rfl) value
                (Option.some.inj hlowered)
  · exact hbase type htype

theorem withoutType (h : Keeps coerce P (.inline node))
    (hchildren : ∀ child ∈ node.children, ∀ type ∈ lowered coerce child, P type)
    {base : Option TypeExpr} (hbase : ∀ type ∈ base, P type) :
    ∀ type ∈ withoutType (node.not.bind (lowered coerce)) base, P type := by
  intro type htype
  unfold TypeExpr.withoutType at htype
  split at htype
  · rename_i excluded base hexcluded
    cases htype
    refine h.applied "Exclude" (by simp) _ fun arg harg => ?_
    rcases List.mem_pair.mp harg with rfl | rfl
    · exact hbase _ rfl
    · obtain ⟨schema, hnot, hlowered⟩ := Option.bind_eq_some_iff.mp hexcluded
      exact hchildren schema (node.mem_children_not hnot) _ hlowered
  · exact hbase type htype

theorem withNull (h : Keeps coerce P (.inline node)) {base : Option TypeExpr}
    (hbase : ∀ type ∈ base, P type) : ∀ type ∈ withNull node.nullable base, P type := by
  intro type htype
  have hnull : P null := h.keyword _ (Or.inr ⟨by simp, by simp⟩)
  unfold TypeExpr.withNull at htype
  split at htype
  · split at htype <;> cases htype
    · refine h.ofUnion _ fun type htype => ?_
      rcases List.mem_pair.mp htype with rfl | rfl
      · exact hbase _ rfl
      · exact hnull
    · exact hnull
  · exact hbase type htype

end Keeps

/-- **What every step of lowering keeps holds of every lowered type.** -/
theorem lowered_induction {P : TypeExpr → Prop} {schema : Schema} (h : Keeps coerce P schema) :
    ∀ type ∈ lowered coerce schema, P type := by
  induction schema using Schema.induction with
  | step schema ih =>
      cases schema with
      | reference pointer =>
          intro type htype
          cases htype
          exact h.reference pointer .self
      | inline node =>
          have hchildren : ∀ child ∈ node.children, ∀ type ∈ lowered coerce child, P type :=
            fun child hchild => ih child hchild (h.child hchild)
          rw [lowered_inline]
          exact h.withNull
            (h.withoutType hchildren (h.withDictionary hchildren (h.base? hchildren)))

end ApiTypings.TypeExpr
