/-
The type of a choice has the values of its members.

The type of `oneOf` and of `anyOf` is a union.  Bare keywords are wrapped on the way to it and
texts that have occurred are dropped, and neither changes the values: what is wrapped keeps them,
and what is written alike has the same ones as long as the names of references are identifiers.

A member without a type is dropped as well.  Alone such a member is open and admits every value,
but beside a member that has a type it adds nothing.
-/
import Mathlib
import ApiTypings.Proofs.Soundness
import ApiTypings.Proofs.WordNames

namespace ApiTypings

open OpenApi

namespace OpenApi

/-- The first keyword that the type of the node is made from is a choice of the members. -/
structure SchemaObject.Chooses (node : SchemaObject) (members : List Schema) : Prop where
  nullable : node.nullable ≠ some true
  not : node.not = none
  additional : ∀ additional ∈ node.additionalProperties, additional.isOpen = false
  allOf : node.allOf = none
  choice : node.oneOf = some members ∨ node.oneOf = none ∧ node.anyOf = some members

end OpenApi

namespace TypeExpr

/-- A reference whose name is an identifier has a name to be read. -/
theorem isTypeName_referenceName {pointer : String}
    (h : Text.isIdentifier (referenceName pointer) = true) :
    IsTypeName (referenceName pointer) := by
  refine ⟨h, fun first hfirst => ?_⟩
  obtain ⟨c, hc, hdigit⟩ := Text.isIdentifier_pascalCase_iff.mp h
  have hhead : (referenceName pointer).toList.head? = some (Text.toUpper c) := by
    rw [referenceName, Text.pascalCase, String.toList_ofList, Text.head?_joinCapitalized, hc,
      Option.map_some]
  obtain rfl : Text.toUpper c = first := Option.some.inj (hhead.symm.trans hfirst)
  rw [Text.isUpper_toUpper (List.find?_some hc), hdigit]
  rfl

variable {names : String → Json → Prop} {value : Json} {coerce : Bool} {members : List Schema}

/-! ### The types of a choice -/

theorem filterMap_id_eq_nil {types : List (Option TypeExpr)} :
    types.filterMap id = [] ↔ ∀ type ∈ types, type = none := by
  rw [List.filterMap_eq_nil_iff]
  rfl

theorem widenAll_filterMap_eq_nil {types : List (Option TypeExpr)} :
    (widenAll types).filterMap id = [] ↔ ∀ type ∈ types, type = none := by
  rw [filterMap_id_eq_nil, widenAll]
  split
  · rfl
  · rw [List.forall_mem_map]
    simp only [Option.map_eq_none_iff]

theorem distinctTexts_eq_nil {types : List TypeExpr} :
    distinctTexts [] types = [] ↔ types = [] := by
  cases types with
  | nil => exact ⟨fun _ => rfl, fun _ => rfl⟩
  | cons type types => simp [distinctTexts]

theorem oneOfTypes_eq_nil :
    oneOfTypes coerce members = [] ↔ ∀ member ∈ members, lowered coerce member = none := by
  rw [oneOfTypes, widenAll_filterMap_eq_nil, List.forall_mem_map]

theorem anyOfTypes_eq_nil :
    anyOfTypes coerce members = [] ↔ ∀ member ∈ members, lowered coerce member = none := by
  unfold anyOfTypes
  split
  · rw [filterMap_id_eq_nil, List.forall_mem_map]
  · exact oneOfTypes_eq_nil

/-- The types stand for the members: there are none exactly if no member has a type, and they
have the values of the members' types. -/
structure StandFor (names : String → Json → Prop) (coerce : Bool) (types : List TypeExpr)
    (members : List Schema) : Prop where
  nil : types = [] ↔ ∀ member ∈ members, lowered coerce member = none
  values : ∀ value, (∃ type ∈ types, Inhabits names type value)
    ↔ ∃ member ∈ members, ∃ type ∈ lowered coerce member, Inhabits names type value

theorem exists_lowered_iff : (∃ type, some type ∈ members.map (lowered coerce)
      ∧ Inhabits names type value)
    ↔ ∃ member ∈ members, ∃ type ∈ lowered coerce member, Inhabits names type value := by
  constructor
  · rintro ⟨type, hmem, h⟩
    obtain ⟨member, hmember, hlowered⟩ := List.mem_map.mp hmem
    exact ⟨member, hmember, type, hlowered, h⟩
  · rintro ⟨member, hmember, type, hlowered, h⟩
    exact ⟨type, List.mem_map.mpr ⟨member, hmember, hlowered⟩, h⟩

theorem standFor_oneOfTypes : StandFor names coerce (oneOfTypes coerce members) members where
  nil := oneOfTypes_eq_nil
  values value := by rw [oneOfTypes, inhabits_widenAll, exists_lowered_iff]

theorem standFor_anyOfTypes : StandFor names coerce (anyOfTypes coerce members) members where
  nil := anyOfTypes_eq_nil
  values value := by
    unfold anyOfTypes
    split
    · rw [inhabits_filterMap_id, exists_lowered_iff]
    · exact standFor_oneOfTypes.values value

theorem StandFor.distinctTexts {types : List TypeExpr} (h : StandFor names coerce types members)
    (hlegible : ∀ type ∈ types, Everywhere Legible type) :
    StandFor names coerce (distinctTexts [] types) members where
  nil := distinctTexts_eq_nil.trans h.nil
  values value := (inhabits_distinctTexts hlegible).trans (h.values value)

theorem StandFor.inhabits_union {types : List TypeExpr} (h : StandFor names coerce types members) :
    Inhabits names ((unionOf? types).getD unknown) value
      ↔ (∀ member ∈ members, lowered coerce member = none)
        ∨ ∃ member ∈ members, ∃ type ∈ lowered coerce member, Inhabits names type value := by
  rw [inhabits_getD_unionOf?, h.nil, h.values]

/-! ### The type of a choice -/

variable {node : SchemaObject}

theorem lowered_of_chooses (h : node.Chooses members) :
    lowered coerce (.inline node) = base? coerce node := by
  rw [lowered_of_closed h.not h.additional]
  exact if_neg h.nullable

/-- **A choice has the values of the members that have a type.**  If no member has one it is open.
So no member that has a type is lost; a member without a type, which admits all values, is
lost beside one that has a type.  For `anyOf` the names of references have to be identifiers: a
name that begins with a digit may be written like a number. -/
theorem inhabits_choice_iff (h : node.Chooses members)
    (hnames : node.oneOf = none → ∀ pointer, Schema.Occurs (.reference pointer) (.inline node) →
      Text.isIdentifier (referenceName pointer) = true) (location : String) :
    Inhabits names ((Inspect.runAt location (ofSchema coerce (.inline node))).1.getD unknown) value
      ↔ (∀ member ∈ members, lowered coerce member = none)
        ∨ ∃ member ∈ members, ∃ type ∈ lowered coerce member, Inhabits names type value := by
  rw [(appends_ofSchema (.inline node)).runAt_eq]
  show Inhabits names ((lowered coerce (.inline node)).getD unknown) value ↔ _
  rw [lowered_of_chooses h]
  rcases h.choice with hone | ⟨hone, hany⟩
  · have hbase : base? coerce node = unionOf? (oneOfTypes coerce members) := by
      simp only [base?, h.allOf, hone]
    rw [hbase]
    exact standFor_oneOfTypes.inhabits_union
  · have hbase : base? coerce node
        = unionOf? (TypeExpr.distinctTexts [] (anyOfTypes coerce members)) := by
      simp only [base?, h.allOf, hone, hany]
    rw [hbase]
    have hlegible : ∀ type ∈ anyOfTypes coerce members, Everywhere Legible type :=
      legible_anyOfTypes (fun pointer hpointer => isTypeName_referenceName (hnames hone _ hpointer))
        hany
    exact (standFor_anyOfTypes.distinctTexts hlegible).inhabits_union

/-- A reference beside a listed text. -/
theorem inhabits_choice_iff_reference :
    let pet : Schema := .reference "#/components/schemas/pet_store"
    let word : Schema := .inline { enum := some [.string "all"] }
    let node : SchemaObject := { anyOf := some [pet, word] }
    let names : String → Json → Prop := fun name value => name = "PetStore" ∧ value = .null
    (node.Chooses [pet, word]
      ∧ (node.oneOf = none → ∀ pointer, Schema.Occurs (.reference pointer) (.inline node) →
        Text.isIdentifier (referenceName pointer) = true))
      ∧ (Inhabits names
          ((Inspect.runAt "GET /pets" (ofSchema true (.inline node))).1.getD unknown) .null
        ↔ (∀ member ∈ [pet, word], lowered true member = none)
          ∨ ∃ member ∈ [pet, word], ∃ type ∈ lowered true member, Inhabits names type .null) := by
  intro pet word node names
  have hchooses : node.Chooses [pet, word] :=
    ⟨by simp [node], rfl, by simp [node], rfl, .inr ⟨rfl, rfl⟩⟩
  have heverywhere : Schema.Everywhere (fun schema => ∀ pointer, schema = .reference pointer →
      Text.isIdentifier (referenceName pointer) = true) (.inline node) := by
    refine Schema.everywhere_iff.mpr ⟨nofun, fun child hchild => ?_⟩
    rcases List.mem_pair.mp (show child ∈ [pet, word] from hchild) with rfl | rfl
    · refine Schema.everywhere_iff.mpr ⟨?_, nofun⟩
      intro pointer hpointer
      obtain rfl := Referable.reference.inj hpointer
      decide +kernel
    · exact Schema.everywhere_iff.mpr ⟨nofun, nofun⟩
  have hnames : node.oneOf = none → ∀ pointer, Schema.Occurs (.reference pointer) (.inline node) →
      Text.isIdentifier (referenceName pointer) = true :=
    fun _ pointer hoccurs => heverywhere _ hoccurs pointer rfl
  exact ⟨⟨hchooses, hnames⟩, inhabits_choice_iff hchooses hnames "GET /pets"⟩

/-- A number is a value of a member without a type, and not of the choice between this member and
a text.  And it is a value of a member that lists it, but not of the choice between this member and
a reference that is written like the number. -/
theorem choice_narrower :
    let anything : Schema := .inline {}
    let text : Schema := .inline { type := some (.single "string") }
    let first : Schema := .reference "#/components/schemas/1"
    let one : Schema := .inline { enum := some [.ofNat 1] }
    let admits (schema : Schema) (value : Json) : Prop := Inhabits (fun _ _ => False)
      ((Inspect.runAt "GET /pets" (ofSchema false schema)).1.getD unknown) value
    (admits anything (.ofNat 1) ∧ ¬admits (.inline { oneOf := some [anything, text] }) (.ofNat 1))
      ∧ admits one (.ofNat 1) ∧ ¬admits (.inline { anyOf := some [first, one] }) (.ofNat 1) := by
  intro anything text first one admits
  have hadmits : ∀ schema value, admits schema value
      ↔ Inhabits (fun _ _ => False) ((lowered false schema).getD unknown) value := by
    intro schema value
    simp only [admits, (appends_ofSchema schema).runAt_eq]
    rfl
  have hrender : (name (referenceName "#/components/schemas/1")).render
      = (literal (.ofNat 1)).render := by
    decide +kernel
  have hoverlap : distinctTexts [] [name (referenceName "#/components/schemas/1"),
      literal (.ofNat 1)] = [name (referenceName "#/components/schemas/1")] := by
    simp [distinctTexts, hrender]
  have hone : lowered false (.inline { oneOf := some [anything, text] })
      = some (named "NonNullable" [string]) := rfl
  have hany : lowered false (.inline { anyOf := some [first, one] })
      = unionOf? (distinctTexts [] [name (referenceName "#/components/schemas/1"),
          literal (.ofNat 1)]) := rfl
  rw [hoverlap] at hany
  simp only [hadmits, hone, hany]
  refine ⟨⟨inhabits_unknown, fun h => ?_⟩, inhabits_literal.mpr rfl, fun h => ?_⟩
  · obtain ⟨_, htext⟩ := inhabits_keyword.mp (inhabits_nonNullable.mp h).1
    cases htext
  · rcases inhabits_getD_unionOf?.mp h with hnil | ⟨type, htype, h⟩
    · cases hnil
    · rw [List.mem_singleton.mp htype] at h
      exact inhabits_name.mp h

end TypeExpr
end ApiTypings
