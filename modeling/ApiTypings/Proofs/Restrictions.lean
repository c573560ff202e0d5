/-
What dictionaries and exclusions take away.

The type of a node is its base, intersected with a dictionary where further properties are allowed,
and without the type of what `not` excludes.  Both take away more than their keywords do.  A
dictionary is a type of objects, and it asks the declared properties for what the schema asks of
further ones only.  An exclusion takes an alternative away as a whole, as soon as the excluded type
has all of its values, and the excluded type may have more values than the excluded schema.

`Leaves` says which values stay, and nothing else is lost on the way.  Where the parts of a node
have types that lose nothing, the type of the node admits exactly the allowed values that are
left.  The excluded schema is not one of the parts: its type may have too many values, and it is
compared as it is.
-/
import Mathlib
import ApiTypings.Proofs.Soundness

namespace ApiTypings

open OpenApi

namespace OpenApi

namespace SchemaObject

/-- The node without the keywords that stand around its base. -/
def core (node : SchemaObject) : SchemaObject :=
  { node with nullable := none, not := none, additionalProperties := none }

/-- The schemas whose values come into the type of a node: all but the excluded one. -/
def parts (node : SchemaObject) : List Schema :=
  ({ node with not := none } : SchemaObject).children

variable {node : SchemaObject} {part : Schema}

theorem children_eq : node.children = node.not.toList ++ node.parts := by
  simp [parts, children]

theorem parts_eq : node.parts
    = (node.additionalProperties.bind AdditionalProperties.schema?).toList
      ++ node.core.children := by
  simp [parts, core, children]

theorem mem_children_of_parts (h : part ∈ node.parts) : part ∈ node.children := by
  rw [children_eq]
  exact List.mem_append_right _ h

theorem mem_parts_of_core (h : part ∈ node.core.children) : part ∈ node.parts := by
  rw [parts_eq]
  exact List.mem_append_right _ h

theorem mem_parts_additional {additional : AdditionalProperties Schema}
    (h : node.additionalProperties = some additional) (hpart : additional.schema? = some part) :
    part ∈ node.parts :=
  mem_children_additional h hpart

end SchemaObject

/-- No reference stands anywhere in the schema. -/
def Schema.ReferenceFree (schema : Schema) : Prop :=
  ∀ pointer, ¬Schema.Occurs (.reference pointer) schema

theorem Schema.ReferenceFree.part {node : SchemaObject} {part : Schema}
    (h : Schema.ReferenceFree (.inline node)) (hpart : part ∈ node.parts) :
    Schema.ReferenceFree part := by
  intro pointer hpointer
  have hchild : part ∈ Schema.children (.inline node) := SchemaObject.mem_children_of_parts hpart
  exact h pointer (.inside hchild hpointer)

theorem Schema.ReferenceFree.core {node : SchemaObject} (h : Schema.ReferenceFree (.inline node)) :
    Schema.ReferenceFree (.inline node.core) := by
  intro pointer hpointer
  cases hpointer with
  | inside hchild hpointer =>
      exact h.part (SchemaObject.mem_parts_of_core hchild) pointer hpointer

/-- A way to read schemas by which every keyword of a node holds of what the node allows.  It may
ask for more than the keywords do. -/
def IsReading (valid : Schema → Json → Prop) : Prop :=
  ∀ node value, valid (.inline node) value →
    (node.nullable = some true ∧ value = .null) ∨ Satisfies valid node value

theorem isReading_valid (references : String → Json → Prop) : IsReading (Valid references) :=
  fun _ _ h => valid_inline.mp h

theorem Satisfies.core {valid : Schema → Json → Prop} {node : SchemaObject} {value : Json}
    (h : Satisfies valid node value) : Satisfies valid node.core value :=
  { h with
    not := nofun
    additional := nofun }

/-- The base of a node is expressible, and a nullable node has a type besides null. -/
structure SchemaObject.Representable (node : SchemaObject) : Prop where
  core : node.core.Expressible
  nullable : node.nullable = some true →
    (TypeExpr.lowered false (.inline { node with nullable := none })).isSome

end OpenApi

namespace TypeExpr

/-- The type of a schema admits the value. A schema without a type admits all values. -/
def Admits (names : String → Json → Prop) (schema : Schema) (value : Json) : Prop :=
  Inhabits names ((lowered false schema).getD unknown) value

/-- What a dictionary beside a base leaves: objects in which the declared properties hold what
further ones are asked for. -/
def LeftByDictionary (names : String → Json → Prop) (node : SchemaObject) (value : Json) : Prop :=
  ∀ additional ∈ node.additionalProperties, additional.isOpen = true →
    ∃ fields, value = .object fields ∧ ∀ schema ∈ additional.schema?, ∀ field ∈ fields,
      field.1 ∈ (node.properties.getD []).map Prod.fst → Admits names schema field.2

/-- What an exclusion leaves: the values of the alternatives that have a value which is not
excluded. -/
def LeftByExclusion (names : String → Json → Prop) (excluded : Option TypeExpr) (type : TypeExpr)
    (value : Json) : Prop :=
  ∀ other ∈ excluded, ∃ part ∈ type.alternatives, Inhabits names part value
    ∧ ∃ v, Inhabits names part v ∧ ¬Inhabits names other v

/-- What the keywords around the base of a node leave of the values that the base has. A node
without a base has no type, and all values are left. -/
structure Leaves (names : String → Json → Prop) (node : SchemaObject) (value : Json) : Prop where
  dictionary : (lowered false (.inline node.core)).isSome → LeftByDictionary names node value
  exclusion : ∀ type ∈ lowered false (.inline { node with nullable := none, not := none }),
    LeftByExclusion names (node.not.bind (lowered false)) type value

variable {names : String → Json → Prop} {valid : Schema → Json → Prop} {value : Json}
  {node : SchemaObject}

/-! ### The keywords around a base -/

/-- An exclusion beside a base keeps of it what the exclusion leaves. -/
theorem withoutType_some (names : String → Json → Prop) (excluded : Option TypeExpr)
    (base : TypeExpr) :
    ∃ type, withoutType excluded (some base) = some type
      ∧ ∀ value, Inhabits names type value
          ↔ Inhabits names base value ∧ LeftByExclusion names excluded base value := by
  cases excluded with
  | none => exact ⟨base, rfl, fun value => (and_iff_left nofun).symm⟩
  | some other =>
      refine ⟨named "Exclude" [base, other], rfl, fun value => ?_⟩
      have hleft : LeftByExclusion names (some other) base value
          ↔ Inhabits names (named "Exclude" [base, other]) value := by
        simp only [inhabits_exclude, LeftByExclusion, Option.mem_def, Option.some.injEq, forall_eq']
      rw [hleft]
      refine (and_iff_right_of_imp fun h => ?_).symm
      obtain ⟨part, hpart, hvalue, -⟩ := inhabits_exclude.mp h
      exact inhabits_alternatives.mpr ⟨part, hpart, hvalue⟩

/-- A dictionary of a schema. The further properties are known to hold what they are asked for,
so only the declared ones are in question. -/
theorem inhabits_record_iff {schema : Schema}
    (hadditional : node.additionalProperties = some (.schema schema))
    (hparts : ∀ part ∈ node.parts, ∀ v, valid part v → Admits names part v)
    (h : Satisfies valid node value) :
    Inhabits names (record ((lowered false schema).getD unknown)) value
      ↔ LeftByDictionary names node value := by
  have hpart : schema ∈ node.parts := SchemaObject.mem_parts_additional hadditional rfl
  simp only [record, inhabits_record, LeftByDictionary, hadditional, Option.mem_def,
    Option.some.injEq, forall_eq']
  constructor
  · rintro ⟨fields, hvalue, hfields⟩ -
    refine ⟨fields, hvalue, ?_⟩
    rintro _ ⟨⟩ field hfield -
    exact hfields field hfield
  · intro hleft
    obtain ⟨fields, hvalue, hdeclared⟩ := hleft rfl
    refine ⟨fields, hvalue, fun field hfield => ?_⟩
    by_cases hkey : field.1 ∈ (node.properties.getD []).map Prod.fst
    · exact hdeclared schema rfl field hfield hkey
    · have hvalid : valid schema field.2 :=
        h.additional _ schema fields hadditional rfl hvalue field hfield hkey
      exact hparts schema hpart field.2 hvalid

/-- A dictionary beside a base keeps of its allowed values what the dictionary leaves. -/
theorem withDictionary_some (base : TypeExpr)
    (hparts : ∀ part ∈ node.parts, ∀ v, valid part v → Admits names part v)
    (h : Satisfies valid node value) :
    ∃ type, withDictionary (node.additionalProperties.bind (additionalType? false)) (some base)
        = some type
      ∧ (Inhabits names type value
          ↔ Inhabits names base value ∧ LeftByDictionary names node value) := by
  have hpair : ∀ item : TypeExpr, Inhabits names (ofIntersection [base, record item]) value
      ↔ Inhabits names base value ∧ Inhabits names (record item) value := by
    intro item
    rw [inhabits_ofIntersection, List.forall_mem_cons, List.forall_mem_singleton]
  cases hadditional : node.additionalProperties with
  | none =>
      have hleft : LeftByDictionary names node value := by simp [LeftByDictionary, hadditional]
      exact ⟨base, rfl, (and_iff_left hleft).symm⟩
  | some additional =>
      cases additional with
      | flag allowed =>
          cases allowed with
          | false =>
              have hleft : LeftByDictionary names node value := by
                simp [LeftByDictionary, hadditional, AdditionalProperties.isOpen]
              exact ⟨base, rfl, (and_iff_left hleft).symm⟩
          | true =>
              refine ⟨_, rfl, (hpair _).trans (and_congr_right fun _ => ?_)⟩
              simp [LeftByDictionary, hadditional, AdditionalProperties.isOpen,
                AdditionalProperties.schema?, record, inhabits_record, inhabits_unknown]
      | schema schema =>
          refine ⟨_, rfl, (hpair _).trans (and_congr_right fun _ => ?_)⟩
          exact inhabits_record_iff hadditional hparts h

/-! ### A node -/

theorem lowered_core : lowered false (.inline node.core) = base? false node := by
  rw [lowered_of_closed rfl (by simp [SchemaObject.core])]
  rfl

theorem lowered_without_not :
    lowered false (.inline { node with nullable := none, not := none })
      = withDictionary (node.additionalProperties.bind (additionalType? false))
          (base? false node) := by
  rw [lowered_inline]
  rfl

theorem lowered_without_nullable :
    lowered false (.inline node)
      = withNull node.nullable (lowered false (.inline { node with nullable := none })) := by
  rw [lowered_inline, lowered_inline]
  rfl

theorem admits_null (hnode : node.Representable) (hnullable : node.nullable = some true) :
    Admits names (.inline node) .null := by
  obtain ⟨type, htype⟩ := Option.isSome_iff_exists.mp (hnode.nullable hnullable)
  rw [Admits, lowered_without_nullable, htype]
  exact inhabits_withNull_some.mpr (.inl ⟨hnullable, rfl⟩)

/-- Without a base nothing is put around one either. -/
theorem lowered_without_base (hbase : base? false node = none) :
    lowered false (.inline { node with nullable := none, not := none }) = none
      ∧ lowered false (.inline { node with nullable := none }) = none := by
  have hnone : ∀ values, withDictionary values none = none := by
    intro values
    cases values <;> rfl
  constructor
  · rw [lowered_without_not, hbase, hnone]
  · have hbase' : base? false { node with nullable := none } = none := hbase
    rw [lowered_inline, hbase', hnone]
    cases ({ node with nullable := none } : SchemaObject).not.bind (lowered false) <;> rfl

theorem admits_and_leaves_without_base (hnode : node.Representable)
    (hbase : base? false node = none) :
    Admits names (.inline node) value ∧ Leaves names node value := by
  obtain ⟨hnot, hnull⟩ := lowered_without_base hbase
  have hnullable : node.nullable ≠ some true := by
    intro hnullable
    have hsome := hnode.nullable hnullable
    rw [hnull] at hsome
    cases hsome
  constructor
  · rw [Admits, lowered_without_nullable, hnull, withNull, if_neg hnullable]
    exact inhabits_unknown
  · refine ⟨fun hsome => ?_, fun type htype => ?_⟩
    · rw [lowered_core, hbase] at hsome
      cases hsome
    · rw [hnot] at htype
      cases htype

/-- Over a base, what is left is what the dictionary and then the exclusion leave. -/
theorem leaves_iff {base type : TypeExpr} (hbase : base? false node = some base)
    (htype : withDictionary (node.additionalProperties.bind (additionalType? false)) (some base)
      = some type) :
    Leaves names node value ↔ LeftByDictionary names node value
      ∧ LeftByExclusion names (node.not.bind (lowered false)) type value := by
  have hcore : (lowered false (.inline node.core)).isSome := by
    rw [lowered_core, hbase]
    rfl
  have hnot : lowered false (.inline { node with nullable := none, not := none }) = some type := by
    rw [lowered_without_not, hbase, htype]
  constructor
  · intro hleaves
    exact ⟨hleaves.dictionary hcore, hleaves.exclusion type hnot⟩
  · rintro ⟨hleft, hexcluded⟩
    refine ⟨fun _ => hleft, fun other hother => ?_⟩
    obtain rfl := Option.some.inj (hnot.symm.trans hother)
    exact hexcluded

/-- The base admits what its keywords allow, if the parts do. -/
theorem inhabits_of_parts (hfree : Schema.ReferenceFree (.inline node))
    (hcore : node.core.Expressible)
    (hparts : ∀ part ∈ node.parts, ∀ v, valid part v → Admits names part v)
    (h : Satisfies valid node value) : ∀ base ∈ base? false node, Inhabits names base value := by
  intro base hbase
  have hchildren : ∀ child ∈ node.core.children, ∀ v, valid child v →
      Inhabits names ((lowered false child).getD unknown) v :=
    fun child hchild => hparts child (SchemaObject.mem_parts_of_core hchild)
  have hbase' : base? false node.core = some base := hbase
  have hadmits := inhabits_base?_of_expressible hchildren h.core hcore
    fun pointer hpointer => (hfree.core pointer hpointer).elim
  rwa [hbase'] at hadmits

/-- What a dictionary leaves is left altogether if the excluded type has no more values than the
excluded schema: a value that is not excluded keeps its alternative. -/
theorem leaves_of_exact (hfree : Schema.ReferenceFree (.inline node))
    (hnode : node.Representable)
    (hparts : ∀ part ∈ node.parts, ∀ v, valid part v → Admits names part v)
    (hexact : ∀ excluded ∈ node.not, ∀ other ∈ lowered false excluded, ∀ v,
      Inhabits names other v → valid excluded v)
    (h : Satisfies valid node value) (hdictionary : LeftByDictionary names node value) :
    Leaves names node value := by
  cases hbase : base? false node with
  | none => exact (admits_and_leaves_without_base hnode hbase).2
  | some base =>
      obtain ⟨type, htype, hvalues⟩ := withDictionary_some base hparts h
      have hvalue : Inhabits names type value :=
        hvalues.mpr ⟨inhabits_of_parts hfree hnode.core hparts h base hbase, hdictionary⟩
      refine (leaves_iff hbase htype).mpr ⟨hdictionary, fun other hother => ?_⟩
      obtain ⟨excluded, hnot, hlowered⟩ := Option.bind_eq_some_iff.mp hother
      have hother : ¬Inhabits names other value := by
        intro hexcluded
        exact h.not excluded hnot (hexact excluded hnot other hlowered value hexcluded)
      obtain ⟨part, hpart, hinhabits⟩ := inhabits_alternatives.mp hvalue
      exact ⟨part, hpart, hinhabits, value, hinhabits, hother⟩

/-- One step: where the parts admit what they allow, the node admits what it allows as far as the
keywords around its base leave it. -/
theorem admits_iff_of_parts (hvalid : IsReading valid)
    (hfree : Schema.ReferenceFree (.inline node))
    (hnode : node.Representable)
    (hparts : ∀ part ∈ node.parts, ∀ v, valid part v → Admits names part v)
    (h : valid (.inline node) value) :
    Admits names (.inline node) value
      ↔ (node.nullable = some true ∧ value = .null) ∨ Leaves names node value := by
  rcases hvalid node value h with hnull | hsatisfies
  · obtain ⟨hnullable, rfl⟩ := hnull
    exact iff_of_true (admits_null hnode hnullable) (.inl ⟨hnullable, rfl⟩)
  cases hbase : base? false node with
  | none =>
      obtain ⟨hadmits, hleaves⟩ := admits_and_leaves_without_base hnode hbase
      exact iff_of_true hadmits (.inr hleaves)
  | some base =>
      obtain ⟨type, hdictionary, htype⟩ := withDictionary_some base hparts hsatisfies
      obtain ⟨result, hexclusion, hresult⟩ :=
        withoutType_some names (node.not.bind (lowered false)) type
      have hlowered : lowered false (.inline node) = withNull node.nullable (some result) := by
        rw [lowered_inline, hbase, hdictionary, hexclusion]
      have hvalue : Inhabits names base value :=
        inhabits_of_parts hfree hnode.core hparts hsatisfies base hbase
      rw [Admits, hlowered, inhabits_withNull_some, hresult, htype, leaves_iff hbase hdictionary]
      exact or_congr_right (and_congr_left fun _ => and_iff_right hvalue)

end TypeExpr

/-! ### A whole schema -/

/-- No node of a schema loses a value that it allows. What `not` excludes does not count.
`valid` may be a reading that allows only what every node leaves: then the condition is one on the
values, and not on the schema. -/
inductive OpenApi.Schema.Lossless (names : String → Json → Prop) (valid : Schema → Json → Prop) :
    Schema → Prop
  | inline {node : SchemaObject} (hnode : node.Representable)
      (hleaves : ∀ value, valid (.inline node) value →
        (node.nullable = some true ∧ value = .null) ∨ TypeExpr.Leaves names node value)
      (hparts : ∀ part ∈ node.parts, Lossless names valid part) :
      Lossless names valid (.inline node)

namespace TypeExpr

variable {names : String → Json → Prop} {valid : Schema → Json → Prop} {value : Json}
  {node : SchemaObject} {schema : Schema}

/-- The run: what loses nothing anywhere admits all that it allows. -/
theorem admits_of_lossless (hvalid : IsReading valid) (h : Schema.Lossless names valid schema)
    (hfree : Schema.ReferenceFree schema)
    (hvalue : valid schema value) : Admits names schema value := by
  induction h generalizing value with
  | inline hnode hleaves _ ih =>
      refine (admits_iff_of_parts hvalid hfree hnode ?_ hvalue).mpr (hleaves value hvalue)
      intro part hpart v hv
      exact ih part hpart (hfree.part hpart) hv

/-- What is neither restricted nor without a type for its choices loses nothing. -/
theorem lossless_of_expressible (h : Schema.Everywhere Schema.Expressible schema) :
    Schema.Lossless names valid schema := by
  induction schema using Schema.induction with
  | step schema ih =>
      cases schema with
      | reference pointer => exact h.self.elim
      | inline node =>
          have hnode : node.Expressible := h.self
          refine .inline ?_ ?_ ?_
          · exact ⟨⟨rfl, nofun, hnode.properties, nofun, hnode.oneOf, hnode.anyOf⟩, hnode.nullable⟩
          · refine fun value _ => .inr ⟨fun _ additional hadditional hopen => ?_, fun type _ => ?_⟩
            · rw [hnode.additional additional hadditional] at hopen
              cases hopen
            · simp [LeftByExclusion, hnode.not]
          · intro part hpart
            have hchild := SchemaObject.mem_children_of_parts hpart
            exact ih part hchild (h.child hchild)

/-- **The type of a schema admits exactly the allowed values that are left.**  Null is left where
it is allowed; of the other values those that pass the dictionary, and that stand in an alternative
of which not all is excluded. -/
theorem admits_iff_leaves (hvalid : IsReading valid)
    (hfree : Schema.ReferenceFree (.inline node))
    (hnode : node.Representable) (hparts : ∀ part ∈ node.parts, Schema.Lossless names valid part)
    (h : valid (.inline node) value) (location : String) :
    Inhabits names
        ((Inspect.runAt location (ofSchema false (.inline node))).1.getD unknown) value
      ↔ (node.nullable = some true ∧ value = .null) ∨ Leaves names node value := by
  rw [(appends_ofSchema (.inline node)).runAt_eq]
  show Admits names (.inline node) value ↔ _
  refine admits_iff_of_parts hvalid hfree hnode ?_ h
  intro part hpart v hv
  exact admits_of_lossless hvalid (hparts part hpart) (hfree.part hpart) hv

/-- A dictionary of numbers beside a text, and an exclusion of texts. -/
theorem admits_iff_leaves_age :
    let text : Schema := .inline { type := some (.single "string") }
    let number : Schema := .inline { type := some (.single "number") }
    let node : SchemaObject := {
      type := some (.single "object")
      properties := some [("name", text)]
      additionalProperties := some (.schema number)
      not := some text
    }
    let valid : Schema → Json → Prop := Valid fun _ _ => False
    let value : Json := .object [("age", .ofNat 5)]
    (IsReading valid ∧ Schema.ReferenceFree (.inline node)
      ∧ node.Representable ∧ (∀ part ∈ node.parts, Schema.Lossless (fun _ _ => False) valid part)
      ∧ valid (.inline node) value)
      ∧ Inhabits (fun _ _ => False)
          ((Inspect.runAt "GET /pets" (ofSchema false (.inline node))).1.getD unknown) value := by
  intro text number node valid value
  have hscalar : ∀ schema ∈ Schema.children (.inline node),
      Schema.Everywhere Schema.Expressible schema := by
    intro schema hschema
    have hmem : schema ∈ [text, number, text] := hschema
    simp only [List.mem_cons, List.not_mem_nil, or_false] at hmem
    rcases hmem with rfl | rfl | rfl <;>
      exact Schema.everywhere_iff.mpr ⟨⟨rfl, by simp, by simp, by simp, by simp, by simp⟩, nofun⟩
  have hfree : Schema.ReferenceFree (.inline node) := by
    intro pointer hpointer
    cases hpointer with
    | inside hchild hinner => exact hscalar _ hchild _ hinner
  have hnode : node.Representable :=
    ⟨⟨rfl, nofun, by simp [node, SchemaObject.core], nofun, nofun, nofun⟩, nofun⟩
  have hparts : ∀ part ∈ node.parts, Schema.Lossless (fun _ _ => False) valid part :=
    fun part hpart =>
      lossless_of_expressible (hscalar part (SchemaObject.mem_children_of_parts hpart))
  have hsatisfies : Satisfies valid node value := by
    refine ⟨nofun, nofun, nofun, nofun, ?_, ?_, nofun, nofun, ?_, ?_⟩
    · rintro _ ⟨⟩
      exact ⟨"object", List.mem_singleton.mpr rfl, rfl⟩
    · rintro _ _ fields ⟨⟩ - ⟨⟩ hfields property hproperty found hfound
      obtain rfl := List.mem_singleton.mp hproperty
      obtain rfl := Json.object.inj hfields
      cases hfound
    · rintro _ ⟨⟩ hexcluded
      cases valid_typeName.mp hexcluded
    · rintro _ _ fields ⟨⟩ ⟨⟩ hfields field hfield -
      obtain rfl := Json.object.inj hfields
      obtain rfl := List.mem_singleton.mp hfield
      exact valid_typeName.mpr rfl
  have hvalid : valid (.inline node) value := valid_inline.mpr (.inr hsatisfies)
  have hdictionary : LeftByDictionary (fun _ _ => False) node value := by
    rintro _ ⟨⟩ -
    refine ⟨_, rfl, fun _ _ field hfield hkey => ?_⟩
    obtain rfl := List.mem_singleton.mp hfield
    simp [node] at hkey
  have hexact : ∀ excluded ∈ node.not, ∀ other ∈ lowered false excluded, ∀ v,
      Inhabits (fun _ _ => False) other v → valid excluded v := by
    rintro _ ⟨⟩ _ ⟨⟩ v hv
    obtain ⟨_, rfl⟩ := inhabits_keyword.mp hv
    exact valid_typeName.mpr rfl
  have hleaves : Leaves (fun _ _ => False) node value := by
    refine leaves_of_exact hfree hnode (fun part hpart v hv => ?_) hexact hsatisfies hdictionary
    exact admits_of_lossless (isReading_valid _) (hparts part hpart) (hfree.part hpart) hv
  exact ⟨⟨isReading_valid _, hfree, hnode, hparts, hvalid⟩,
    (admits_iff_leaves (isReading_valid _) hfree hnode hparts hvalid "GET /pets").mpr
      (.inr hleaves)⟩

/-- A text under a declared key is allowed beside further numbers, and not admitted by the
dictionary of numbers.  And an empty object is allowed where objects with a name are excluded, and
not admitted, since the excluded type has all objects. -/
theorem restricted_narrower :
    let text : Schema := .inline { type := some (.single "string") }
    let number : Schema := .inline { type := some (.single "number") }
    let dictionary : Schema := .inline {
      type := some (.single "object")
      properties := some [("name", text)]
      additionalProperties := some (.schema number)
    }
    let exclusion : Schema := .inline {
      type := some (.single "object")
      not := some (.inline { type := some (.single "object"), required := ["name"] })
    }
    let loses (schema : Schema) (value : Json) : Prop :=
      Valid (fun _ _ => False) schema value
        ∧ ∃ type ∈ (Inspect.runAt "GET /pets" (ofSchema false schema)).1,
            ¬Inhabits (fun _ _ => False) type value
    loses dictionary (.object [("name", .string "Rex")]) ∧ loses exclusion (.object []) := by
  intro text number dictionary exclusion loses
  have hloses : ∀ schema value, loses schema value ↔ Valid (fun _ _ => False) schema value
      ∧ ∃ type ∈ lowered false schema, ¬Inhabits (fun _ _ => False) type value := by
    intro schema value
    simp only [loses, (appends_ofSchema schema).runAt_eq]
    rfl
  simp only [hloses]
  refine ⟨⟨?_, _, rfl, fun h => ?_⟩, ?_, _, rfl, fun h => ?_⟩
  · refine valid_inline.mpr (.inr ⟨nofun, nofun, nofun, nofun, ?_, ?_, nofun, nofun, nofun, ?_⟩)
    · rintro _ ⟨⟩
      exact ⟨"object", List.mem_singleton.mpr rfl, rfl⟩
    · rintro _ _ _ ⟨⟩ - ⟨⟩ ⟨⟩ property hproperty found hfound
      obtain rfl := List.mem_singleton.mp hproperty
      obtain rfl := Option.some.inj hfound
      exact valid_typeName.mpr rfl
    · rintro _ _ _ ⟨⟩ ⟨⟩ ⟨⟩ field hfield hkey
      obtain rfl := List.mem_singleton.mp hfield
      simp at hkey
  · have hrecord := inhabits_ofIntersection.mp h (record TypeExpr.number)
      (List.mem_cons_of_mem _ List.mem_cons_self)
    obtain ⟨fields, hvalue, hfields⟩ := inhabits_record.mp hrecord
    obtain rfl := Json.object.inj hvalue
    obtain ⟨_, hnumber⟩ := inhabits_keyword.mp (hfields _ List.mem_cons_self)
    cases hnumber
  · refine valid_inline.mpr (.inr ⟨nofun, nofun, nofun, nofun, ?_, nofun, nofun, nofun, ?_, nofun⟩)
    · rintro _ ⟨⟩
      exact ⟨"object", List.mem_singleton.mpr rfl, rfl⟩
    · rintro _ ⟨⟩ hexcluded
      rcases valid_inline.mp hexcluded with ⟨hnullable, -⟩ | hexcluded
      · cases hnullable
      · have hname := hexcluded.required _ [] rfl (List.mem_singleton.mpr rfl) rfl "name"
          (List.mem_singleton.mpr rfl)
        cases hname
  · obtain ⟨part, hpart, -, other, hother, hleft⟩ := inhabits_exclude.mp h
    rw [List.mem_singleton.mp hpart] at hother
    exact hleft hother

end TypeExpr
end ApiTypings
