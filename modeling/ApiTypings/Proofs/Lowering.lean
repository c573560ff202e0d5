/-
The type of a schema as an equation.

Types are built under a collector of findings, and the types do not depend on it.  `lowered`
is the type alone, and `lowered_inline` is the cascade for it without any state: a base
from the first keyword that gives one, and what the other keywords put around it.  What is
shown of lowered types starts from these equations.
-/
import Mathlib
import ApiTypings.Proofs.SchemaStructure
import ApiTypings.Proofs.Traversals
import ApiTypings.TypeExpr.OfSchema

namespace ApiTypings.TypeExpr

open OpenApi Inspect

variable {coerce : Bool}

/-! ### The cascade by its parts -/

/-- The base of a node: what the first of `allOf`, `oneOf`, `anyOf`, `enum` and `type` gives. -/
def ofBase (coerce : Bool) (node : SchemaObject) : Inspect (Option TypeExpr) :=
  match ofMembers? coerce node.allOf, ofMembers? coerce node.oneOf, node.anyOf,
    ofMembers? coerce node.anyOf, node.enum with
  | some types, _, _, _, _ => (fun types => intersectionOf? (types.filterMap id)) <$> types
  | none, some types, _, _, _ => (fun types => unionOf? ((widenAll types).filterMap id)) <$> types
  | none, none, some members, some types, _ => ofAnyOf members types
  | none, none, _, _, some values => pure (some (ofUnion (values.map literal)))
  | none, none, _, _, none =>
    ofTypeKeyword coerce (ofProperties? coerce node.required node.properties)
      (arrayOf coerce <$> ofItem coerce node.items) node.type

theorem ofSchema_inline (node : SchemaObject) :
    ofSchema coerce (.inline node) = (do
      let base ← ofBase coerce node
      let base ← withAdditional (ofAdditional? coerce node.additionalProperties) base
      let base ← withNot (ofSchema? coerce node.not) base
      return withNull node.nullable base) := by
  obtain ⟨_, _, _, _, _, _, allOf, oneOf, anyOf, enum, _, _, _, _, _, _, _⟩ := node
  cases allOf <;> cases oneOf <;> cases anyOf <;> cases enum <;> rfl

theorem ofMembers?_eq_map (keyword : Option (List Schema)) :
    ofMembers? coerce keyword = keyword.map (ofMembers coerce) := by
  cases keyword <;> rfl

/-! ### Lowering only appends -/

theorem appends_ofTypeName {object array : Inspect TypeExpr} (hobject : Appends object)
    (harray : Appends array) (name : String) :
    Appends (ofTypeName coerce object array name) := by
  unfold ofTypeName
  split
  case h_5 => exact hobject.bind (appends_pure _)
  case h_6 => exact harray.bind (appends_pure _)
  all_goals exact appends_pure _

theorem appends_ofTypeNames {object array : Inspect TypeExpr} (hobject : Appends object)
    (harray : Appends array) (names : List String) :
    Appends (ofTypeNames coerce object array names) := by
  induction names with
  | nil => exact appends_pure _
  | cons name names ih =>
      exact (appends_ofTypeName hobject harray name).bind (ih.bind (appends_pure _))

theorem appends_ofTypeKeyword {object array : Inspect TypeExpr} (hobject : Appends object)
    (harray : Appends array) (type : Option TypeName) :
    Appends (ofTypeKeyword coerce object array type) := by
  match type with
  | none => exact appends_pure _
  | some (.single name) => exact appends_ofTypeName hobject harray name
  | some (.several names) =>
      exact (appends_ofTypeNames hobject harray names).bind (appends_pure _)

theorem appends_ofAnyOf {members : List Schema} {types : Inspect (List (Option TypeExpr))}
    (h : Appends types) : Appends (ofAnyOf members types) := by
  unfold ofAnyOf
  dsimp only
  split
  · exact (appends_warn _).bind (h.bind (appends_pure _))
  · exact h.bind (appends_pure _)

theorem appends_ofMembers {members : List Schema}
    (h : ∀ schema ∈ members, Appends (ofSchema coerce schema)) :
    Appends (ofMembers coerce members) :=
  traverses_ofMembers.appends h

theorem appends_ofProperties {required : List String} {properties : List (String × Schema)}
    (h : ∀ property ∈ properties, Appends (ofSchema coerce property.2)) :
    Appends (ofProperties coerce required properties) :=
  (traverses_ofProperties required).appends h

theorem appends_ofProperties? {required : List String}
    {properties : Option (List (String × Schema))}
    (h : ∀ property ∈ properties.getD [], Appends (ofSchema coerce property.2)) :
    Appends (ofProperties? coerce required properties) := by
  cases properties with
  | none => exact appends_pure _
  | some properties =>
      rw [ofProperties?]
      refine (appends_ofProperties h).bind ?_
      split <;> exact appends_pure _

theorem appends_ofItem {items : Option Schema}
    (h : ∀ schema ∈ items, Appends (ofSchema coerce schema)) : Appends (ofItem coerce items) := by
  cases items with
  | none => exact appends_pure _
  | some schema => exact h schema rfl

section

variable {node : SchemaObject} (h : ∀ schema ∈ node.children, Appends (ofSchema coerce schema))
include h

theorem appends_ofBase : Appends (ofBase coerce node) := by
  have hmembers : ∀ {keyword : Option (List Schema)} {inspect},
      (∀ members, keyword = some members → ∀ s ∈ members, s ∈ node.children) →
      ofMembers? coerce keyword = some inspect → Appends inspect := by
    intro keyword inspect hkeyword hinspect
    cases keyword with
    | none => cases hinspect
    | some members =>
        obtain rfl := Option.some.inj hinspect
        exact appends_ofMembers fun s hs => h s (hkeyword members rfl s hs)
  unfold ofBase
  split
  · exact (hmembers (fun _ hall _ hs => node.mem_children_allOf hall hs) ‹_›).map _
  · exact (hmembers (fun _ hone _ hs => node.mem_children_oneOf hone hs) ‹_›).map _
  · exact appends_ofAnyOf (hmembers (fun _ hany _ hs => node.mem_children_anyOf hany hs) ‹_›)
  · exact appends_pure _
  · refine appends_ofTypeKeyword (appends_ofProperties? ?_) (Appends.map ?_ _) _
    · intro property hproperty
      cases hproperties : node.properties with
      | none => simp [hproperties] at hproperty
      | some properties =>
          rw [hproperties] at hproperty
          exact h _ (node.mem_children_properties hproperties hproperty)
    · exact appends_ofItem fun s hs => h s (node.mem_children_items hs)

theorem appends_withAdditional (base : Option TypeExpr) :
    Appends (withAdditional (ofAdditional? coerce node.additionalProperties) base) := by
  unfold withAdditional
  split
  · rename_i values _ hvalues
    refine Appends.bindPure ?_ _
    cases hadditional : node.additionalProperties with
    | none => simp [hadditional, ofAdditional?] at hvalues
    | some additional =>
        rw [hadditional] at hvalues
        cases additional with
        | flag allowed =>
            cases allowed <;> cases hvalues
            exact appends_pure _
        | schema schema =>
            obtain rfl := Option.some.inj hvalues
            exact h _ (node.mem_children_additional hadditional rfl)
  · exact appends_pure _

theorem appends_withNot (base : Option TypeExpr) :
    Appends (withNot (ofSchema? coerce node.not) base) := by
  unfold withNot
  split
  · rename_i excluded _ hexcluded
    refine Appends.bind ?_ (by split <;> exact appends_pure _)
    cases hnot : node.not with
    | none => simp [hnot, ofSchema?] at hexcluded
    | some schema =>
        rw [hnot] at hexcluded
        obtain rfl := Option.some.inj hexcluded
        exact h _ (node.mem_children_not hnot)
  · exact appends_pure _

end

/-- **Building a type only appends to what has been found.** -/
theorem appends_ofSchema (schema : Schema) : Appends (ofSchema coerce schema) := by
  induction schema using Schema.induction with
  | step schema ih =>
      cases schema with
      | reference pointer => exact appends_pure _
      | inline node =>
          rw [ofSchema_inline]
          exact (appends_ofBase ih).bind ((appends_withAdditional ih _).bind
            ((appends_withNot ih _).bindPure _))

/-! ### Types without the collector -/

/-- The type of a schema, if it has one. -/
def lowered (coerce : Bool) (schema : Schema) : Option TypeExpr := (ofSchema coerce schema).value

/-- The member of a property. -/
def loweredMember (coerce : Bool) (required : List String) (property : String × Schema) :
    Member where
  name := property.1
  type := (lowered coerce property.2).getD unknown
  isOptional := !required.contains property.1

/-- The type of an object with the described properties. -/
def objectOf (coerce : Bool) (required : List String) : Option (List (String × Schema)) → TypeExpr
  | none => anyRecord coerce
  | some [] => record never
  | some properties => object (properties.map (loweredMember coerce required))

/-- The type of a type name, where objects and arrays are the given ones. -/
def nameType? (coerce : Bool) (object array : TypeExpr) (name : String) : Option TypeExpr :=
  (ofTypeName coerce (pure object) (pure array) name).value

/-- The type of the keyword `type`, where objects and arrays are the given ones. -/
def keywordType? (coerce : Bool) (object array : TypeExpr) : Option TypeName → Option TypeExpr
  | none => none
  | some (.single name) => nameType? coerce object array name
  | some (.several names) => unionOf? (names.filterMap (nameType? coerce object array))

/-- The types of the members of `oneOf`. -/
def oneOfTypes (coerce : Bool) (members : List Schema) : List TypeExpr :=
  (widenAll (members.map (lowered coerce))).filterMap id

/-- The types of the members of `anyOf`, before equal texts are dropped. -/
def anyOfTypes (coerce : Bool) (members : List Schema) : List TypeExpr :=
  (if members.all isPlainSchema then members.map (lowered coerce)
    else widenAll (members.map (lowered coerce))).filterMap id

/-- The base of a node: what the first of `allOf`, `oneOf`, `anyOf`, `enum` and `type` gives. -/
def base? (coerce : Bool) (node : SchemaObject) : Option TypeExpr :=
  match node.allOf, node.oneOf, node.anyOf, node.enum with
  | some members, _, _, _ => intersectionOf? (members.filterMap (lowered coerce))
  | none, some members, _, _ => unionOf? (oneOfTypes coerce members)
  | none, none, some members, _ => unionOf? (distinctTexts [] (anyOfTypes coerce members))
  | none, none, none, some values => some (ofUnion (values.map literal))
  | none, none, none, none =>
    keywordType? coerce (objectOf coerce node.required node.properties)
      (arrayOf coerce (node.items.bind (lowered coerce))) node.type

/-- The type of the values of further properties, if these are allowed. -/
def additionalType? (coerce : Bool) : AdditionalProperties Schema → Option (Option TypeExpr)
  | .flag allowed => if allowed then some none else none
  | .schema schema => some (lowered coerce schema)

/-- `base` and a dictionary. -/
def withDictionary (values : Option (Option TypeExpr)) (base : Option TypeExpr) : Option TypeExpr :=
  match values, base with
  | some values, some base => some (ofIntersection [base, record (values.getD unknown)])
  | _, base => base

/-- `base` without what another type excludes. -/
def withoutType (excluded base : Option TypeExpr) : Option TypeExpr :=
  match excluded, base with
  | some excluded, some base => some (named "Exclude" [base, excluded])
  | _, base => base

theorem value_ofMembers (members : List Schema) :
    (ofMembers coerce members).value = members.map (lowered coerce) :=
  traverses_ofMembers.value_eq fun schema _ => appends_ofSchema schema

theorem value_ofProperties (required : List String) (properties : List (String × Schema)) :
    (ofProperties coerce required properties).value
      = properties.map (loweredMember coerce required) :=
  (traverses_ofProperties required).value_eq fun property _ => appends_ofSchema property.2

theorem value_ofProperties? (required : List String)
    (properties : Option (List (String × Schema))) :
    (ofProperties? coerce required properties).value = objectOf coerce required properties := by
  cases properties with
  | none => rfl
  | some properties =>
      have h : Appends (ofProperties coerce required properties) :=
        appends_ofProperties fun p _ => appends_ofSchema p.2
      rw [ofProperties?, h.value_bind (by split <;> exact appends_pure _), value_ofProperties]
      cases properties <;> rfl

theorem value_ofTypeName (object array : Inspect TypeExpr) (name : String) :
    (ofTypeName coerce object array name).value
      = nameType? coerce object.value array.value name := by
  unfold nameType? ofTypeName
  split
  all_goals rfl

theorem value_ofTypeNames {object array : Inspect TypeExpr} (hobject : Appends object)
    (harray : Appends array) (names : List String) :
    (ofTypeNames coerce object array names).value
      = names.filterMap (nameType? coerce object.value array.value) := by
  induction names with
  | nil => rfl
  | cons name names ih =>
      have hnames : Appends (ofTypeNames coerce object array names) :=
        appends_ofTypeNames hobject harray names
      rw [ofTypeNames, (appends_ofTypeName hobject harray name).value_bind
          (hnames.bindPure _), value_bindPure, ih, value_ofTypeName, List.filterMap_cons]
      cases nameType? coerce object.value array.value name <;> rfl

theorem value_ofTypeKeyword {object array : Inspect TypeExpr} (hobject : Appends object)
    (harray : Appends array) (type : Option TypeName) :
    (ofTypeKeyword coerce object array type).value
      = keywordType? coerce object.value array.value type := by
  match type with
  | none => rfl
  | some (.single name) => exact value_ofTypeName _ _ name
  | some (.several names) =>
      rw [ofTypeKeyword, value_bindPure, value_ofTypeNames hobject harray]
      rfl

theorem value_ofAnyOf (members : List Schema) :
    (ofAnyOf members (ofMembers coerce members)).value
      = unionOf? (distinctTexts [] (anyOfTypes coerce members)) := by
  have htypes : Appends (ofMembers coerce members) :=
    appends_ofMembers fun s _ => appends_ofSchema s
  unfold ofAnyOf anyOfTypes
  dsimp only
  split
  · rw [(appends_warn _).value_bind (htypes.bindPure _), value_bindPure, value_ofMembers]
  · rw [value_bindPure, value_ofMembers]

theorem value_ofBase (node : SchemaObject) : (ofBase coerce node).value = base? coerce node := by
  have hitem : Appends (arrayOf coerce <$> ofItem coerce node.items) :=
    (appends_ofItem fun s _ => appends_ofSchema s).map _
  have hitemValue : (arrayOf coerce <$> ofItem coerce node.items).value
      = arrayOf coerce (node.items.bind (lowered coerce)) := by
    rw [value_map]
    cases node.items <;> rfl
  have hobject : Appends (ofProperties? coerce node.required node.properties) :=
    appends_ofProperties? fun property _ => appends_ofSchema property.2
  simp only [ofBase, base?, ofMembers?_eq_map]
  cases node.allOf with
  | some members =>
      simp [value_ofMembers, List.filterMap_map]
  | none =>
      cases node.oneOf with
      | some members => simp [value_ofMembers, oneOfTypes]
      | none =>
          cases node.anyOf with
          | some members => simp [value_ofAnyOf]
          | none =>
              cases node.enum with
              | some values => rfl
              | none =>
                  simp only [Option.map_none]
                  rw [value_ofTypeKeyword hobject hitem, value_ofProperties?, hitemValue]

theorem value_withAdditional (additional : Option (AdditionalProperties Schema))
    (base : Option TypeExpr) :
    (withAdditional (ofAdditional? coerce additional) base).value
      = withDictionary (additional.bind (additionalType? coerce)) base := by
  rcases additional with _ | ⟨_ | _⟩ | schema <;> cases base <;> rfl

theorem value_withNot (excluded : Option Schema) (base : Option TypeExpr) :
    (withNot (ofSchema? coerce excluded) base).value
      = withoutType (excluded.bind (lowered coerce)) base := by
  cases excluded with
  | none => cases base <;> rfl
  | some schema =>
      cases base with
      | none =>
          simp only [Option.bind_some]
          cases lowered coerce schema <;> rfl
      | some base =>
          simp only [withNot, ofSchema?, Option.bind_some]
          rw [(appends_ofSchema schema).value_bind (by split <;> exact appends_pure _)]
          rw [← lowered]
          cases lowered coerce schema <;> rfl

@[simp]
theorem lowered_reference (pointer : String) :
    lowered coerce (.reference pointer) = some (name (referenceName pointer)) := rfl

/-- **The cascade.** -/
theorem lowered_inline (node : SchemaObject) :
    lowered coerce (.inline node) = withNull node.nullable
      (withoutType (node.not.bind (lowered coerce))
        (withDictionary (node.additionalProperties.bind (additionalType? coerce))
          (base? coerce node))) := by
  have h : ∀ schema ∈ node.children, Appends (ofSchema coerce schema) :=
    fun schema _ => appends_ofSchema schema
  rw [lowered, ofSchema_inline,
    (appends_ofBase h).value_bind ((appends_withAdditional h _).bind
      ((appends_withNot h _).bindPure _)),
    (appends_withAdditional h _).value_bind ((appends_withNot h _).bindPure _),
    value_bindPure, value_withNot, value_withAdditional, value_ofBase]

end ApiTypings.TypeExpr
