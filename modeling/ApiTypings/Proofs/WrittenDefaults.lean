/-
Defaults that are written out say nothing.

A node that is not said to be nullable is not nullable, one that is not said to have further
properties is lowered as one that has none, and a name in `required` says something about the
property of that name only.  So a document may spell all this out, at some of its nodes and not at
others, and the types and the findings stay what they were.

One default at one node is one step, and whatever is written out is a sequence of steps.  A step
deep inside a schema changes nothing for the node around it, because that node looks at a schema
inside in three ways only: it lowers it, and for a choice it asks whether it describes objects and
whether it is plain.  `LoweredAlike` is agreement in these three, and each place inside a node
passes it on.
-/
import Mathlib
import ApiTypings.Proofs.Lowering

namespace ApiTypings

open OpenApi TypeExpr Inspect

namespace OpenApi

/-! ### What is written -/

/-- A place for a schema inside a node: what the node is with a schema put there. -/
inductive SchemaObject.Hole : (Schema → SchemaObject) → Prop
  | not (node : SchemaObject) : Hole fun schema => { node with not := some schema }
  | additional (node : SchemaObject) :
      Hole fun schema => { node with additionalProperties := some (.schema schema) }
  | allOf (node : SchemaObject) (before after : List Schema) :
      Hole fun schema => { node with allOf := some (before ++ schema :: after) }
  | oneOf (node : SchemaObject) (before after : List Schema) :
      Hole fun schema => { node with oneOf := some (before ++ schema :: after) }
  | anyOf (node : SchemaObject) (before after : List Schema) :
      Hole fun schema => { node with anyOf := some (before ++ schema :: after) }
  | property (node : SchemaObject) (before after : List (String × Schema)) (key : String) :
      Hole fun schema => { node with properties := some (before ++ (key, schema) :: after) }
  | items (node : SchemaObject) : Hole fun schema => { node with items := some schema }

/-- A default is written out at one node of a schema, where the keyword is missing; or names that
are not among the properties of a node are added to its `required`, anywhere in the list. -/
inductive Schema.WritesDefault : Schema → Schema → Prop
  | nullable {node : SchemaObject} (h : node.nullable = none) :
      WritesDefault (.inline node) (.inline { node with nullable := some false })
  | additional {node : SchemaObject} (h : node.additionalProperties = none) :
      WritesDefault (.inline node)
        (.inline { node with additionalProperties := some (.flag false) })
  | required {node : SchemaObject} {names : List String} (hkept : node.required.Sublist names)
      (hadded : ∀ name ∈ names,
        name ∈ node.required ∨ name ∉ (node.properties.getD []).map Prod.fst) :
      WritesDefault (.inline node) (.inline { node with required := names })
  | inside {around : Schema → SchemaObject} {schema written : Schema}
      (haround : SchemaObject.Hole around) (h : WritesDefault schema written) :
      WritesDefault (.inline (around schema)) (.inline (around written))

end OpenApi

namespace TypeExpr

variable {coerce : Bool} {schema written : Schema}

/-! ### What a node sees of a schema inside -/

/-- Two schemas in which a node around them sees no difference. -/
structure LoweredAlike (schema written : Schema) : Prop where
  ofSchema : ∀ coerce, ofSchema coerce schema = ofSchema coerce written
  isObject : isObjectSchema schema = isObjectSchema written
  isPlain : isPlainSchema schema = isPlainSchema written

theorem ofMembers_of_alike (h : LoweredAlike schema written) (before after : List Schema) :
    ofMembers coerce (before ++ schema :: after)
      = ofMembers coerce (before ++ written :: after) := by
  induction before with
  | nil =>
      show ofMembers coerce (schema :: after) = ofMembers coerce (written :: after)
      rw [ofMembers, ofMembers, h.ofSchema]
  | cons first before ih =>
      show ofMembers coerce (first :: (before ++ schema :: after))
        = ofMembers coerce (first :: (before ++ written :: after))
      rw [ofMembers, ofMembers, ih]

theorem ofProperties_of_alike (h : LoweredAlike schema written) (required : List String)
    (before after : List (String × Schema)) (key : String) :
    ofProperties coerce required (before ++ (key, schema) :: after)
      = ofProperties coerce required (before ++ (key, written) :: after) := by
  induction before with
  | nil =>
      show ofProperties coerce required ((key, schema) :: after)
        = ofProperties coerce required ((key, written) :: after)
      rw [ofProperties, ofProperties, h.ofSchema]
  | cons first before ih =>
      show ofProperties coerce required (first :: (before ++ (key, schema) :: after))
        = ofProperties coerce required (first :: (before ++ (key, written) :: after))
      rw [ofProperties, ofProperties, ih]

/-- A choice counts the members that describe objects, and asks whether all members are plain. -/
theorem ofAnyOf_of_alike (h : LoweredAlike schema written) (before after : List Schema)
    (types : Inspect (List (Option TypeExpr))) :
    ofAnyOf (before ++ schema :: after) types = ofAnyOf (before ++ written :: after) types := by
  have hcount : (before ++ schema :: after).countP isObjectSchema
      = (before ++ written :: after).countP isObjectSchema := by
    rw [List.countP_append, List.countP_append, List.countP_cons, List.countP_cons, h.isObject]
  have hall : (before ++ schema :: after).all isPlainSchema
      = (before ++ written :: after).all isPlainSchema := by
    rw [List.all_append, List.all_append, List.all_cons, List.all_cons, h.isPlain]
  rw [ofAnyOf, ofAnyOf, hcount, hall]

theorem ofBase_around {around : Schema → SchemaObject} (haround : SchemaObject.Hole around)
    (h : LoweredAlike schema written) :
    ofBase coerce (around schema) = ofBase coerce (around written) := by
  cases haround with
  | not node => rfl
  | additional node => rfl
  | allOf node before after =>
      simp only [ofBase, ofMembers?_eq_map, Option.map_some, ofMembers_of_alike h]
  | oneOf node before after =>
      simp only [ofBase, ofMembers?_eq_map, Option.map_some, ofMembers_of_alike h]
  | anyOf node before after =>
      simp only [ofBase, ofMembers?_eq_map, Option.map_some, ofMembers_of_alike h]
      cases node.allOf with
      | some members => rfl
      | none =>
          cases node.oneOf with
          | some members => rfl
          | none => exact ofAnyOf_of_alike h before after _
  | property node before after key => simp only [ofBase, ofProperties?, ofProperties_of_alike h]
  | items node => simp only [ofBase, ofItem, h.ofSchema]

/-- **A node does not change if a schema inside it is exchanged for one that is alike.** -/
theorem LoweredAlike.around {around : Schema → SchemaObject} (haround : SchemaObject.Hole around)
    (h : LoweredAlike schema written) :
    LoweredAlike (.inline (around schema)) (.inline (around written)) := by
  -- which keywords the node around has, and of what kind it is, does not depend on the schema
  refine ⟨fun coerce => ?_, by cases haround <;> rfl, by cases haround <;> rfl⟩
  rw [ofSchema_inline, ofSchema_inline, ofBase_around haround h]
  cases haround with
  | not node => simp only [ofSchema?, h.ofSchema]
  | additional node => simp only [ofAdditional?, ofAdditional, h.ofSchema]
  | _ => rfl

/-! ### One step -/

/-- Of the required names only those of properties are looked at. -/
theorem ofProperties_congr {required names : List String} {properties : List (String × Schema)}
    (h : ∀ property ∈ properties, required.contains property.1 = names.contains property.1) :
    ofProperties coerce required properties = ofProperties coerce names properties := by
  induction properties with
  | nil => rfl
  | cons property properties ih =>
      obtain ⟨hproperty, hrest⟩ := List.forall_mem_cons.mp h
      rw [ofProperties, ofProperties, ih hrest, hproperty]

theorem contains_of_added {required names : List String} {properties : List (String × Schema)}
    (hkept : required.Sublist names)
    (hadded : ∀ name ∈ names, name ∈ required ∨ name ∉ properties.map Prod.fst) :
    ∀ property ∈ properties, required.contains property.1 = names.contains property.1 := by
  intro property hproperty
  have hiff : property.1 ∈ required ↔ property.1 ∈ names := by
    refine ⟨fun hname => hkept.subset hname, fun hname => ?_⟩
    exact (hadded property.1 hname).resolve_right
      (not_not_intro (List.mem_map.mpr ⟨property, hproperty, rfl⟩))
  rw [Bool.eq_iff_iff, List.contains_iff_mem, List.contains_iff_mem, hiff]

/-- **A default that is written out somewhere in a schema makes no difference.** -/
theorem alike_of_writesDefault (h : Schema.WritesDefault schema written) :
    LoweredAlike schema written := by
  induction h with
  | @nullable node hnone =>
      refine ⟨fun coerce => ?_, rfl, rfl⟩
      rw [ofSchema_inline, ofSchema_inline, hnone]
      rfl
  | @additional node hnone =>
      refine ⟨fun coerce => ?_, rfl, rfl⟩
      rw [ofSchema_inline, ofSchema_inline, hnone]
      rfl
  | @required node names hkept hadded =>
      refine ⟨fun coerce => ?_, rfl, rfl⟩
      have hobject : ofProperties? coerce node.required node.properties
          = ofProperties? coerce names node.properties := by
        cases hproperties : node.properties with
        | none => rfl
        | some properties =>
            rw [hproperties, Option.getD_some] at hadded
            rw [ofProperties?, ofProperties?, ofProperties_congr (contains_of_added hkept hadded)]
      have hbase : ofBase coerce node = ofBase coerce { node with required := names } := by
        simp only [ofBase, hobject]
      rw [ofSchema_inline, ofSchema_inline, hbase]
  | inside haround _ ih => exact ih.around haround

/-! ### Any number of steps -/

/-- **Explicit defaults are neutral.** Whatever is written out in a schema, and however deep inside
it stands, the type or its absence and the findings are those of the schema without it, in both
modes and whatever was found before. -/
theorem run_ofSchema_of_writesDefaults
    (h : Relation.ReflTransGen Schema.WritesDefault schema written) (coerce : Bool)
    (findings : Findings) :
    (ofSchema coerce written).run findings = (ofSchema coerce schema).run findings := by
  induction h with
  | refl => rfl
  | tail _ hstep ih => rw [← ih, (alike_of_writesDefault hstep).ofSchema]

/-- A choice between two objects inside an object: what is written out at all three of them. -/
theorem run_ofSchema_of_writesDefaults_choice :
    let text : Schema := .inline { type := some (.single "string") }
    let pet : SchemaObject :=
      { type := some (.single "object"), properties := some [("name", text)], required := ["name"] }
    let other : Schema := .inline { type := some (.single "object") }
    let choice (first : Schema) : SchemaObject := { anyOf := some [first, other] }
    let node (inner : Schema) : SchemaObject :=
      { type := some (.single "object"), properties := some [("pet", inner)] }
    let schema : Schema := .inline (node (.inline (choice (.inline pet))))
    let written : Schema := .inline
      { node (.inline { choice (.inline { pet with required := ["id", "name"] }) with
          nullable := some false }) with
        additionalProperties := some (.flag false) }
    Relation.ReflTransGen Schema.WritesDefault schema written
      ∧ (ofSchema false schema).run ⟨"GET /pets", []⟩
        = (some (.object [{
              name := "pet", isOptional := true,
              type := .union [.object [{ name := "name", type := string }], record unknown] }]),
            ⟨"GET /pets", [⟨"GET /pets", 2⟩]⟩)
      ∧ ∀ coerce findings,
        (ofSchema coerce written).run findings = (ofSchema coerce schema).run findings := by
  intro text pet other choice node schema written
  have hpet : Schema.WritesDefault (.inline pet)
      (.inline { pet with required := ["id", "name"] }) :=
    .required (List.Sublist.cons _ (List.Sublist.refl _)) (by decide)
  have hchoice : SchemaObject.Hole choice := .anyOf {} [] [other]
  have hnode : SchemaObject.Hole node := .property { type := some (.single "object") } [] [] "pet"
  have hsteps : Relation.ReflTransGen Schema.WritesDefault schema written :=
    .tail (.tail (.single (.inside hnode (.inside hchoice hpet)))
      (.inside hnode (.nullable rfl))) (.additional rfl)
  exact ⟨hsteps, rfl, fun coerce findings =>
    run_ofSchema_of_writesDefaults hsteps coerce findings⟩

end TypeExpr
end ApiTypings
