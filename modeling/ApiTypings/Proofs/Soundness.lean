/-
The type of a schema admits every value that the schema allows.

A type may say less than its schema: the cascade reads one base of a node and passes over
the others, and what has no type of its own is open.  It must not say more.  That
holds as long as no alternative is lost, which is what `Expressible` asks for: where a schema
offers a choice, each choice has a type, and a nullable schema has one besides null.

Each keyword that gives a base admits what the keyword allows, given that the types of the
schemas inside do.  Widening, flattening and dropping equal texts are then all shown to keep
the values they are given.
-/
import Mathlib
import ApiTypings.Proofs.LoweredTypes
import ApiTypings.Proofs.SchemaMeaning
import ApiTypings.Proofs.TypeMeaning

namespace ApiTypings

open OpenApi

namespace OpenApi

/-- What a node has to be like for its type to admit all its values: no exclusion and no open
dictionary, properties that are more than an empty list, and a type for every choice. -/
structure SchemaObject.Expressible (node : SchemaObject) : Prop where
  not : node.not = none
  additional : ∀ additional ∈ node.additionalProperties, additional.isOpen = false
  properties : node.properties ≠ some []
  nullable : node.nullable = some true →
    (TypeExpr.lowered false (.inline { node with nullable := none })).isSome
  oneOf : ∀ members, node.oneOf = some members →
    ∀ member ∈ members, (TypeExpr.lowered false member).isSome
  anyOf : ∀ members, node.anyOf = some members →
    ∀ member ∈ members, (TypeExpr.lowered false member).isSome

/-- A schema in place whose node is expressible. -/
def Schema.Expressible : Schema → Prop
  | .reference _ => False
  | .inline node => node.Expressible

end OpenApi

namespace TypeExpr

variable {names references : String → Json → Prop} {valid : Schema → Json → Prop} {value : Json}

/-! ### Lowered types are legible -/

/-- Where the references have names to be read, all names have: the others are the generator's
own. -/
theorem keeps_legible {coerce : Bool} {schema : Schema}
    (h : ∀ pointer, Schema.Occurs (.reference pointer) schema →
      IsTypeName (referenceName pointer)) :
    Keeps coerce (Everywhere Legible) schema where
  keyword k _ := everywhere_iff.mpr ⟨trivial, by simp [children]⟩
  stringified _ k := by
    refine everywhere_iff.mpr ⟨⟨by simp, List.isChain_singleton _⟩, fun type htype => ?_⟩
    obtain rfl : type = .keyword k := by simpa using mem_children_template.mp htype
    exact everywhere_iff.mpr ⟨trivial, by simp [children]⟩
  literal value := everywhere_iff.mpr ⟨trivial, by simp [children]⟩
  applied name hname args hargs := by
    refine everywhere_iff.mpr ⟨?_, hargs⟩
    fin_cases hname <;> exact ⟨by decide, by simp [Text.isUpper]⟩
  array item hitem := everywhere_iff.mpr ⟨trivial, by simpa [children] using hitem⟩
  ofUnion types htypes := Combination.union.everywhere_of htypes trivial id
  ofIntersection types htypes := Combination.intersection.everywhere_of htypes trivial id
  reference pointer hpointer := everywhere_iff.mpr ⟨h pointer hpointer, by simp [name, children]⟩
  object node properties hnode hproperties hne hmembers := by
    refine everywhere_iff.mpr ⟨by simpa [Legible] using hne, ?_⟩
    intro type htype
    obtain ⟨member, hmember, rfl⟩ := List.mem_map.mp htype
    exact hmembers member hmember

/-- The types of a choice are legible, before equal texts are dropped. -/
theorem legible_anyOfTypes {coerce : Bool} {node : SchemaObject} {members : List Schema}
    (h : ∀ pointer, Schema.Occurs (.reference pointer) (.inline node) →
      IsTypeName (referenceName pointer)) (hany : node.anyOf = some members) :
    ∀ type ∈ anyOfTypes coerce members, Everywhere Legible type := by
  refine (keeps_legible h).anyOfTypes fun type htype => ?_
  obtain ⟨member, hmember, hlowered⟩ := List.mem_map.mp htype
  have hchild : member ∈ Schema.children (.inline node) := node.mem_children_anyOf hany hmember
  exact lowered_induction ((keeps_legible h).child hchild) type hlowered

/-! ### What is done to lists of types changes no values -/

theorem inhabits_intersectionOf? {types : List TypeExpr}
    (h : ∀ type ∈ types, Inhabits names type value) :
    Inhabits names ((intersectionOf? types).getD unknown) value := by
  unfold intersectionOf?
  split
  · exact inhabits_unknown
  · exact inhabits_ofIntersection.mpr h

theorem inhabits_filterMap_id {types : List (Option TypeExpr)} :
    (∃ type ∈ types.filterMap id, Inhabits names type value)
      ↔ ∃ type, some type ∈ types ∧ Inhabits names type value := by
  simp only [List.mem_filterMap, id_eq, exists_eq_right]

theorem inhabits_widenAll {types : List (Option TypeExpr)} :
    (∃ type ∈ (widenAll types).filterMap id, Inhabits names type value)
      ↔ ∃ type, some type ∈ types ∧ Inhabits names type value := by
  rw [inhabits_filterMap_id, widenAll]
  split
  · rfl
  · constructor
    · rintro ⟨_, hmem, h⟩
      obtain ⟨_, htype, heq⟩ := List.mem_map.mp hmem
      obtain ⟨type, rfl, rfl⟩ := Option.map_eq_some_iff.mp heq
      exact ⟨type, htype, inhabits_widen.mp h⟩
    · rintro ⟨type, htype, h⟩
      exact ⟨type.widen, List.mem_map.mpr ⟨some type, htype, rfl⟩, inhabits_widen.mpr h⟩

/-- For every type the list of distinct texts has one that is written alike, unless one was seen
before. -/
theorem exists_mem_distinctTexts {types : List TypeExpr} {type : TypeExpr} (htype : type ∈ types)
    (seen : List String) : type.render ∈ seen ∨
      ∃ kept ∈ distinctTexts seen types, kept.render = type.render := by
  induction types generalizing seen with
  | nil => cases htype
  | cons first types ih =>
      rw [distinctTexts]
      rcases List.mem_cons.mp htype with rfl | htype
      · split
        · rename_i hseen
          exact Or.inl (by simpa using hseen)
        · exact Or.inr ⟨type, List.mem_cons_self, rfl⟩
      · split
        · exact ih htype seen
        · rcases ih htype (seen ++ [first.render]) with hseen | ⟨kept, hkept, hrender⟩
          · rcases List.mem_append.mp hseen with hseen | hfirst
            · exact Or.inl hseen
            · exact Or.inr ⟨first, List.mem_cons_self, (List.mem_singleton.mp hfirst).symm⟩
          · exact Or.inr ⟨kept, List.mem_cons_of_mem _ hkept, hrender⟩

/-- Dropping equal texts loses nothing that types with one text share. -/
theorem exists_mem_distinctTexts_iff {P : TypeExpr → Prop} {types : List TypeExpr}
    (hsame : ∀ {a b : TypeExpr}, Everywhere Legible a → Everywhere Legible b →
      a.render = b.render → (P a ↔ P b))
    (hlegible : ∀ type ∈ types, Everywhere Legible type) :
    (∃ type ∈ distinctTexts [] types, P type) ↔ ∃ type ∈ types, P type := by
  constructor
  · rintro ⟨type, htype, h⟩
    exact ⟨type, mem_of_mem_distinctTexts htype, h⟩
  · rintro ⟨type, htype, h⟩
    rcases exists_mem_distinctTexts htype [] with hseen | ⟨kept, hkept, hrender⟩
    · cases hseen
    · have hkeptLegible := hlegible kept (mem_of_mem_distinctTexts hkept)
      exact ⟨kept, hkept, (hsame hkeptLegible (hlegible type htype) hrender).mpr h⟩

/-- Dropping equal texts drops no value. -/
theorem inhabits_distinctTexts {types : List TypeExpr}
    (hlegible : ∀ type ∈ types, Everywhere Legible type) :
    (∃ type ∈ distinctTexts [] types, Inhabits names type value)
      ↔ ∃ type ∈ types, Inhabits names type value :=
  exists_mem_distinctTexts_iff inhabits_iff_of_render hlegible

/-! ### The bases -/

section

variable {node : SchemaObject}
  (ih : ∀ child ∈ node.children, ∀ value, valid child value →
    Inhabits names ((lowered false child).getD unknown) value)
  (h : Satisfies valid node value)
include ih h

theorem inhabits_allOf {members : List Schema} (hall : node.allOf = some members) :
    Inhabits names ((intersectionOf? (members.filterMap (lowered false))).getD unknown) value := by
  refine inhabits_intersectionOf? fun type htype => ?_
  obtain ⟨member, hmember, hlowered⟩ := List.mem_filterMap.mp htype
  have := ih member (node.mem_children_allOf hall hmember) value
    (h.allOf members hall member hmember)
  rwa [hlowered] at this

omit h in
/-- A member of a list of choices has a type, and the type admits what the member allows. -/
theorem inhabits_member {members : List Schema} (hchildren : ∀ s ∈ members, s ∈ node.children)
    (hsome : ∀ member ∈ members, (lowered false member).isSome)
    (hvalid : ∃ member ∈ members, valid member value) :
    ∃ type, some type ∈ members.map (lowered false) ∧ Inhabits names type value := by
  obtain ⟨member, hmember, hvalid⟩ := hvalid
  obtain ⟨type, htype⟩ := Option.isSome_iff_exists.mp (hsome member hmember)
  have := ih member (hchildren member hmember) value hvalid
  rw [htype] at this
  exact ⟨type, List.mem_map.mpr ⟨member, hmember, htype⟩, this⟩

theorem inhabits_oneOf {members : List Schema} (hnode : node.Expressible)
    (hone : node.oneOf = some members) :
    Inhabits names ((unionOf? (oneOfTypes false members)).getD unknown) value := by
  obtain ⟨type, htype, hinhabits⟩ := inhabits_member ih
    (fun s hs => node.mem_children_oneOf hone hs) (hnode.oneOf members hone) (h.oneOf members hone)
  exact inhabits_getD_unionOf?.mpr (.inr (inhabits_widenAll.mpr ⟨type, htype, hinhabits⟩))

theorem inhabits_anyOf {members : List Schema} (hnode : node.Expressible)
    (hlegible : ∀ type ∈ anyOfTypes false members, Everywhere Legible type)
    (hany : node.anyOf = some members) :
    Inhabits names ((unionOf? (distinctTexts [] (anyOfTypes false members))).getD unknown)
      value := by
  obtain ⟨type, htype, hinhabits⟩ := inhabits_member ih
    (fun s hs => node.mem_children_anyOf hany hs) (hnode.anyOf members hany) (h.anyOf members hany)
  refine inhabits_getD_unionOf?.mpr (.inr ((inhabits_distinctTexts hlegible).mpr ?_))
  unfold anyOfTypes
  split
  · exact inhabits_filterMap_id.mpr ⟨type, htype, hinhabits⟩
  · exact inhabits_widenAll.mpr ⟨type, htype, hinhabits⟩

/-- The members of an object type ask for no more than `properties` and `required` do. -/
theorem inhabits_objectOf {type : TypeName} (hnode : node.Expressible)
    (htype : node.type = some type) (hobject : "object" ∈ type.names)
    {fields : List (String × Json)} (hvalue : value = .object fields) :
    Inhabits names (objectOf false node.required node.properties) value := by
  cases hproperties : node.properties with
  | none =>
      exact inhabits_record.mpr ⟨fields, hvalue, fun _ _ => inhabits_unknown⟩
  | some properties =>
      cases properties with
      | nil => exact absurd hproperties hnode.properties
      | cons first rest =>
          refine inhabits_object.mpr ⟨fields, hvalue, fun member hmember => ?_⟩
          obtain ⟨⟨key, schema⟩, hproperty, rfl⟩ := List.mem_map.mp hmember
          cases hlookup : Json.lookup key fields with
          | some found =>
              simp only [loweredMember, hlookup]
              exact ih schema (node.mem_children_properties hproperties hproperty) found
                (h.properties type _ fields htype hobject hproperties hvalue _ hproperty found
                  hlookup)
          | none =>
              have hrequired : key ∉ node.required := by
                intro hkey
                have := h.required type fields htype hobject hvalue key hkey
                simp [hlookup] at this
              simpa [loweredMember, hlookup] using hrequired

theorem inhabits_arrayOf {elements : List Json} (hvalue : value = .array elements) :
    Inhabits names (arrayOf false (node.items.bind (lowered false))) value := by
  refine inhabits_array.mpr ⟨elements, hvalue, fun element helement => ?_⟩
  cases hitems : node.items with
  | none => exact inhabits_unknown
  | some items =>
      exact ih items (node.mem_children_items hitems) element
        (h.items items elements hitems hvalue element helement)

/-- The type of a type name admits the values of its kind. -/
theorem inhabits_nameType? {type : TypeName} (hnode : node.Expressible)
    (htype : node.type = some type) {name : String} (hname : name ∈ type.names)
    (hkind : hasKind name value = true) :
    ∃ result ∈ nameType? false (objectOf false node.required node.properties)
      (arrayOf false (node.items.bind (lowered false))) name, Inhabits names result value := by
  unfold hasKind at hkind
  split at hkind
  · exact ⟨boolean, rfl, inhabits_keyword.mpr ⟨_, rfl⟩⟩
  · exact ⟨string, rfl, inhabits_keyword.mpr ⟨_, rfl⟩⟩
  · exact ⟨number, rfl, inhabits_keyword.mpr ⟨_, rfl⟩⟩
  · exact ⟨number, rfl, inhabits_keyword.mpr ⟨_, rfl⟩⟩
  · exact ⟨_, rfl, inhabits_objectOf ih h hnode htype hname rfl⟩
  · exact ⟨_, rfl, inhabits_arrayOf ih h rfl⟩
  · exact ⟨null, rfl, inhabits_keyword.mpr rfl⟩
  · cases hkind

theorem inhabits_keywordType? (hnode : node.Expressible) :
    Inhabits names ((keywordType? false (objectOf false node.required node.properties)
      (arrayOf false (node.items.bind (lowered false))) node.type).getD unknown) value := by
  cases htype : node.type with
  | none => exact inhabits_unknown
  | some type =>
      obtain ⟨name, hname, hkind⟩ := h.type type htype
      obtain ⟨result, hresult, hinhabits⟩ := inhabits_nameType? ih h hnode htype hname hkind
      cases type with
      | single only =>
          obtain rfl := List.mem_singleton.mp (show name ∈ [only] from hname)
          rw [keywordType?, Option.mem_def.mp hresult]
          exact hinhabits
      | several listed =>
          exact inhabits_getD_unionOf?.mpr
            (.inr ⟨result, List.mem_filterMap.mpr ⟨name, hname, hresult⟩, hinhabits⟩)

/-- The base admits what the node allows, whatever else it carries. -/
theorem inhabits_base?_of_expressible (hnode : node.Expressible)
    (hnames : ∀ pointer, Schema.Occurs (.reference pointer) (.inline node) →
      IsTypeName (referenceName pointer)) :
    Inhabits names ((base? false node).getD unknown) value := by
  unfold base?
  split
  · exact inhabits_allOf ih h ‹_›
  · exact inhabits_oneOf ih h hnode ‹_›
  · rename_i members _ _ _ hany
    exact inhabits_anyOf ih h hnode (legible_anyOfTypes hnames hany) hany
  · rename_i values _ _ _ henum
    refine inhabits_ofUnion.mpr ⟨literal value, ?_, inhabits_literal.mpr rfl⟩
    exact List.mem_map.mpr ⟨value, h.enum values henum, rfl⟩
  · exact inhabits_keywordType? ih h hnode

theorem inhabits_base? (hschema : Schema.Everywhere Schema.Expressible (.inline node)) :
    Inhabits names ((base? false node).getD unknown) value :=
  inhabits_base?_of_expressible ih h hschema.self fun _ hpointer => (hschema _ hpointer).elim

end

/-- What is closed and not excluded from leaves the base as it is. -/
theorem lowered_of_closed {coerce : Bool} {node : SchemaObject} (hnot : node.not = none)
    (hclosed : ∀ additional ∈ node.additionalProperties, additional.isOpen = false) :
    lowered coerce (.inline node) = withNull node.nullable (base? coerce node) := by
  have hadditional : node.additionalProperties.bind (additionalType? coerce) = none := by
    cases hadditional : node.additionalProperties with
    | none => rfl
    | some additional =>
        have hclosed := hclosed additional (by simp [hadditional])
        cases additional with
        | flag allowed =>
            cases allowed with
            | false => rfl
            | true => cases hclosed
        | schema schema => cases hclosed
  rw [lowered_inline, hnot, hadditional]
  cases base? coerce node <;> rfl

theorem isSome_base? {node : SchemaObject} (hnode : node.Expressible)
    (hnullable : node.nullable = some true) : (base? false node).isSome := by
  have hstripped := hnode.nullable hnullable
  have hbase : lowered false (.inline { node with nullable := none }) = base? false node :=
    lowered_of_closed hnode.not hnode.additional
  rwa [hbase] at hstripped

theorem inhabits_withNull_some {nullable : Option Bool} {type : TypeExpr} :
    Inhabits names ((withNull nullable (some type)).getD unknown) value
      ↔ (nullable = some true ∧ value = .null) ∨ Inhabits names type value := by
  by_cases hnullable : nullable = some true
  · have hnull : Inhabits names null value ↔ value = .null := inhabits_keyword
    rw [withNull, if_pos hnullable, Option.getD_some, inhabits_ofUnion]
    simp only [List.mem_cons, List.not_mem_nil, or_false, exists_eq_or_imp, exists_eq_left, hnull,
      hnullable, true_and]
    exact or_comm
  · rw [withNull, if_neg hnullable, Option.getD_some]
    exact (or_iff_right fun h => hnullable h.1).symm

theorem inhabits_withNull {nullable : Option Bool} {base : Option TypeExpr}
    (hsome : nullable = some true → base.isSome)
    (h : (nullable = some true ∧ value = .null) ∨ Inhabits names (base.getD unknown) value) :
    Inhabits names ((withNull nullable base).getD unknown) value := by
  cases base with
  | some type => exact inhabits_withNull_some.mpr h
  | none =>
      have hnullable : nullable ≠ some true := fun hnullable => by cases hsome hnullable
      rw [withNull, if_neg hnullable]
      exact inhabits_unknown

/-- **The type of a schema admits every value that the schema allows.** -/
theorem inhabits_of_valid {schema : Schema} (h : Schema.Everywhere Schema.Expressible schema)
    (hvalid : Valid references schema value) (location : String) :
    Inhabits names ((Inspect.runAt location (ofSchema false schema)).1.getD unknown) value := by
  rw [(appends_ofSchema schema).runAt_eq]
  show Inhabits names ((lowered false schema).getD unknown) value
  induction schema using Schema.induction generalizing value with
  | step schema ih =>
      cases schema with
      | reference pointer => exact h.self.elim
      | inline node =>
          have hnode : node.Expressible := h.self
          rw [lowered_of_closed hnode.not hnode.additional]
          refine inhabits_withNull (isSome_base? hnode) ?_
          refine (valid_inline.mp hvalid).imp_right fun hsatisfies => ?_
          exact inhabits_base?
            (fun child hchild _ hvalid => ih child hchild (h.child hchild) hvalid)
            hsatisfies h

/-- Null under a list of choices of which one is nullable. -/
theorem inhabits_of_valid_nullable :
    let text : Schema := .inline { type := some (.single "string") }
    let choice : Schema := .inline { enum := some [.ofNat 1], nullable := some true }
    let schema : Schema := .inline { anyOf := some [text, choice] }
    (Schema.Everywhere Schema.Expressible schema ∧ Valid (fun _ _ => False) schema .null)
      ∧ Inhabits (fun _ _ => False)
          ((Inspect.runAt "GET /pets" (ofSchema false schema)).1.getD unknown) .null := by
  intro text choice schema
  have htext : Schema.Everywhere Schema.Expressible text :=
    Schema.everywhere_iff.mpr ⟨⟨rfl, by simp, by simp, by simp, by simp, by simp⟩, nofun⟩
  have hchoice : Schema.Everywhere Schema.Expressible choice :=
    Schema.everywhere_iff.mpr ⟨⟨rfl, by simp, by simp, fun _ => rfl, by simp, by simp⟩, nofun⟩
  have hschema : Schema.Everywhere Schema.Expressible schema := by
    refine Schema.everywhere_iff.mpr ⟨⟨rfl, by simp, by simp, by simp, by simp, ?_⟩, ?_⟩
    · rintro _ ⟨⟩ member hmember
      rcases List.mem_pair.mp hmember with rfl | rfl <;> rfl
    · intro child hchild
      rcases List.mem_pair.mp (show child ∈ [text, choice] from hchild) with rfl | rfl
      · exact htext
      · exact hchoice
  have hvalid : Valid (fun _ _ => False) schema .null := by
    refine valid_inline.mpr (Or.inr ⟨by simp, by simp, ?_, by simp, by simp, by simp, by simp,
      by simp, by simp, by simp⟩)
    rintro _ ⟨⟩
    exact ⟨choice, by simp, valid_inline.mpr (Or.inl ⟨rfl, rfl⟩)⟩
  exact ⟨⟨hschema, hvalid⟩, inhabits_of_valid hschema hvalid "GET /pets"⟩

end TypeExpr
end ApiTypings
