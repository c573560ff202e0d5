/-
Which warnings the lowering of a schema gives.

Values travel as they are or as text, and a schema is lowered for one or for the other.  Whether it
has a type does not depend on this, and so the lowering goes the same way in both modes: it comes to
the same nodes in the same order.

A warning is given at a node whose base is made of `anyOf`, if several of its members are object
schemas.  It says how many.  So the warnings of a schema are those of its visits, and they are added
behind what has been found before.  Where a node is visited twice, its warning is given twice.
-/
import Mathlib
import ApiTypings.Proofs.SchemaVisits

namespace ApiTypings

open OpenApi

namespace OpenApi

/-! ### The warnings of a schema -/

/-- The number of object schemas among the members of `anyOf`, if the base is made of them and there
are several. -/
def SchemaObject.objectMembers? (node : SchemaObject) : Option Nat :=
  match node.allOf, node.oneOf, node.anyOf with
  | none, none, some members =>
    if 1 < members.countP isObjectSchema then some (members.countP isObjectSchema) else none
  | _, _, _ => none

namespace Schema

/-- The warnings of a schema: one for each visit of a node that asks for one. -/
def warnings (schema : Schema) : List Nat :=
  (visits schema).filterMap fun visit => visit.2.objectMembers?

theorem warnings_inline (node : SchemaObject) :
    warnings (.inline node) = node.objectMembers?.toList
      ++ node.innerVisits.flatMap fun visit => warnings visit.2 := by
  have hinner : (node.innerVisits.flatMap fun visit =>
        (visits visit.2).map fun inner => (visit.1 :: inner.1, inner.2)).filterMap
          (fun visit => visit.2.objectMembers?)
      = node.innerVisits.flatMap fun visit => warnings visit.2 := by
    rw [List.filterMap_flatMap]
    refine List.flatMap_congr fun visit _ => ?_
    rw [List.filterMap_map]
    rfl
  rw [warnings, visits_inline, List.filterMap_cons, hinner]
  cases node.objectMembers? <;> rfl

end Schema
end OpenApi

namespace TypeExpr

open Inspect

variable {coerce other : Bool} {node : SchemaObject}

/-! ### Both modes have a type for the same schemas -/

theorem unionOf?_eq_none {types : List TypeExpr} : unionOf? types = none ↔ types = [] := by
  simp [unionOf?]

theorem intersectionOf?_eq_none {types : List TypeExpr} :
    intersectionOf? types = none ↔ types = [] := by
  simp [intersectionOf?]

theorem nameType?_eq_none_congr {object array otherObject otherArray : TypeExpr} {name : String} :
    nameType? coerce object array name = none
      ↔ nameType? other otherObject otherArray name = none := by
  unfold nameType? ofTypeName
  split <;> simp

theorem keywordType?_eq_none_congr {object array otherObject otherArray : TypeExpr}
    {type : Option TypeName} :
    keywordType? coerce object array type = none
      ↔ keywordType? other otherObject otherArray type = none := by
  match type with
  | none => rfl
  | some (.single name) => exact nameType?_eq_none_congr
  | some (.several names) =>
      simp only [keywordType?, unionOf?_eq_none, List.filterMap_eq_nil_iff]
      exact forall₂_congr fun name _ => nameType?_eq_none_congr

theorem base?_eq_none_congr
    (h : ∀ child ∈ node.children, lowered coerce child = none ↔ lowered other child = none) :
    base? coerce node = none ↔ base? other node = none := by
  have hmembers : ∀ {members : List Schema}, (∀ member ∈ members, member ∈ node.children) →
      ((∀ member ∈ members, lowered coerce member = none)
        ↔ ∀ member ∈ members, lowered other member = none) :=
    fun hchildren => forall₂_congr fun member hmember => h member (hchildren member hmember)
  -- wrapping keywords and dropping equal texts leaves nothing only where there was nothing
  unfold base?
  split
  · rename_i hall
    rw [intersectionOf?_eq_none, intersectionOf?_eq_none, List.filterMap_eq_nil_iff,
      List.filterMap_eq_nil_iff]
    exact hmembers fun _ => node.mem_children_allOf hall
  · rename_i hone
    rw [unionOf?_eq_none, unionOf?_eq_none, oneOfTypes_eq_nil, oneOfTypes_eq_nil]
    exact hmembers fun _ => node.mem_children_oneOf hone
  · rename_i hany
    rw [unionOf?_eq_none, unionOf?_eq_none, distinctTexts_eq_nil, distinctTexts_eq_nil,
      anyOfTypes_eq_nil, anyOfTypes_eq_nil]
    exact hmembers fun _ => node.mem_children_anyOf hany
  · simp
  · exact keywordType?_eq_none_congr

theorem isSome_withDictionary (values : Option (Option TypeExpr)) (base : Option TypeExpr) :
    (withDictionary values base).isSome = base.isSome := by
  cases values <;> cases base <;> rfl

theorem isSome_withoutType (excluded base : Option TypeExpr) :
    (withoutType excluded base).isSome = base.isSome := by
  cases excluded <;> cases base <;> rfl

theorem isSome_withNull (nullable : Option Bool) (base : Option TypeExpr) :
    (withNull nullable base).isSome = (nullable == some true || base.isSome) := by
  unfold withNull
  split <;> cases base <;> simp_all

theorem isSome_lowered_inline :
    (lowered coerce (.inline node)).isSome
      = (node.nullable == some true || (base? coerce node).isSome) := by
  rw [lowered_inline, isSome_withNull, isSome_withoutType, isSome_withDictionary]

/-- **Whether a schema has a type does not depend on the mode.** -/
theorem lowered_eq_none_congr (schema : Schema) :
    lowered coerce schema = none ↔ lowered other schema = none := by
  induction schema using Schema.induction with
  | step schema ih =>
      cases schema with
      | reference pointer => simp
      | inline node =>
          have hbase := Option.isSome_eq_isSome.mpr (base?_eq_none_congr ih)
          rw [← Option.isSome_eq_isSome, isSome_lowered_inline, isSome_lowered_inline, hbase]

theorem isSome_base?_congr (coerce other : Bool) :
    (base? coerce node).isSome = (base? other node).isSome :=
  Option.isSome_eq_isSome.mpr (base?_eq_none_congr fun child _ => lowered_eq_none_congr child)

/-! ### What a node adds -/

theorem counts_ofMembers (members : List Schema) :
    (ofMembers coerce members).counts
      = members.flatMap fun member => (ofSchema coerce member).counts :=
  traverses_ofMembers.counts_eq fun schema _ => appends_ofSchema schema

theorem counts_ofProperties (required : List String) (properties : List (String × Schema)) :
    (ofProperties coerce required properties).counts
      = (properties.map Prod.snd).flatMap fun schema => (ofSchema coerce schema).counts := by
  rw [List.flatMap_map]
  exact (traverses_ofProperties required).counts_eq fun property _ => appends_ofSchema property.2

theorem counts_ofProperties? (required : List String)
    (properties : Option (List (String × Schema))) :
    (ofProperties? coerce required properties).counts
      = ((properties.getD []).map Prod.snd).flatMap fun schema =>
        (ofSchema coerce schema).counts := by
  cases properties with
  | none => rfl
  | some properties =>
      have h : Appends (ofProperties coerce required properties) :=
        appends_ofProperties fun p _ => appends_ofSchema p.2
      rw [ofProperties?, h.counts_bind (by split <;> exact appends_pure _), counts_ofProperties]
      split <;> simp

theorem counts_ofItem (items : Option Schema) :
    (ofItem coerce items).counts
      = items.toList.flatMap fun schema => (ofSchema coerce schema).counts := by
  cases items with
  | none => rfl
  | some schema => simp [ofItem]

theorem counts_ofTypeName (object array : Inspect TypeExpr) (name : String) :
    (ofTypeName coerce object array name).counts
      = if name = "object" then object.counts else if name = "array" then array.counts else [] := by
  unfold ofTypeName
  split
  case h_5 => rw [counts_bindPure, if_pos rfl]
  case h_6 => rw [counts_bindPure, if_neg (by decide), if_pos rfl]
  all_goals simp_all

theorem counts_ofTypeNames {object array : Inspect TypeExpr} (hobject : Appends object)
    (harray : Appends array) (names : List String) :
    (ofTypeNames coerce object array names).counts
      = names.flatMap fun name =>
        if name = "object" then object.counts else if name = "array" then array.counts else [] := by
  induction names with
  | nil => rfl
  | cons name names ih =>
      have hnames : Appends (ofTypeNames coerce object array names) :=
        appends_ofTypeNames hobject harray names
      rw [ofTypeNames, (appends_ofTypeName hobject harray name).counts_bind (hnames.bindPure _),
        counts_bindPure, ih, counts_ofTypeName, List.flatMap_cons]

theorem flatMap_numbered {α : Type} (f : Schema → List α) (step : Nat → SchemaStep)
    (schemas : List Schema) :
    ((numbered step schemas).flatMap fun visit => f visit.2) = schemas.flatMap f := by
  rw [← List.flatMap_map, map_snd_numbered]

theorem flatMap_kindVisits {α : Type} (f : Schema → List α) (kind : Nat) (name : String) :
    ((node.kindVisits kind name).flatMap fun visit => f visit.2)
      = if name = "object" then ((node.properties.getD []).map Prod.snd).flatMap f
        else if name = "array" then node.items.toList.flatMap f
        else [] := by
  unfold SchemaObject.kindVisits
  split
  · exact flatMap_numbered f _ _
  · split
    · rw [List.flatMap_map]
    · rfl

/-- Each kind of a node adds what is found in the schemas it is made of. -/
theorem counts_ofTypeKeyword :
    (ofTypeKeyword coerce (ofProperties? coerce node.required node.properties)
        (arrayOf coerce <$> ofItem coerce node.items) node.type).counts
      = (node.kinds.zipIdx.flatMap fun entry => node.kindVisits entry.2 entry.1).flatMap
          fun visit => (ofSchema coerce visit.2).counts := by
  have hobject : Appends (ofProperties? coerce node.required node.properties) :=
    appends_ofProperties? fun property _ => appends_ofSchema property.2
  have harray : Appends (arrayOf coerce <$> ofItem coerce node.items) :=
    (appends_ofItem fun s _ => appends_ofSchema s).map _
  have hkinds : (node.kinds.zipIdx.flatMap fun entry => node.kindVisits entry.2 entry.1).flatMap
        (fun visit => (ofSchema coerce visit.2).counts)
      = node.kinds.flatMap fun name =>
        if name = "object" then (ofProperties? coerce node.required node.properties).counts
        else if name = "array" then (arrayOf coerce <$> ofItem coerce node.items).counts
        else [] := by
    simp only [List.flatMap_assoc, flatMap_kindVisits fun schema => (ofSchema coerce schema).counts,
      counts_ofProperties?, counts_map, counts_ofItem]
    conv_rhs => rw [← List.zipIdx_map_fst 0 node.kinds, List.flatMap_map]
  rw [hkinds, SchemaObject.kinds]
  cases node.type with
  | none => rfl
  | some type =>
      cases type with
      | single name =>
          rw [ofTypeKeyword, counts_ofTypeName]
          simp [TypeName.names]
      | several names => rw [ofTypeKeyword, counts_bindPure, counts_ofTypeNames hobject harray]; rfl

theorem counts_ofAnyOf (members : List Schema) :
    (ofAnyOf members (ofMembers coerce members)).counts
      = (if 1 < members.countP isObjectSchema then [members.countP isObjectSchema] else [])
        ++ members.flatMap fun member => (ofSchema coerce member).counts := by
  have htypes : Appends (ofMembers coerce members) :=
    appends_ofMembers fun s _ => appends_ofSchema s
  unfold ofAnyOf
  dsimp only
  split
  · rw [(appends_warn _).counts_bind (htypes.bindPure _), counts_bindPure, counts_ofMembers,
      counts_warn]
  · rw [counts_bindPure, counts_ofMembers, List.nil_append]

theorem counts_ofBase : (ofBase coerce node).counts = node.objectMembers?.toList
    ++ node.baseVisits.flatMap fun visit => (ofSchema coerce visit.2).counts := by
  have hnumbered := flatMap_numbered fun schema => (ofSchema coerce schema).counts
  simp only [ofBase, SchemaObject.baseVisits, SchemaObject.objectMembers?, ofMembers?_eq_map]
  cases node.allOf with
  | some members => simp [counts_ofMembers, hnumbered]
  | none =>
      cases node.oneOf with
      | some members => simp [counts_ofMembers, hnumbered]
      | none =>
          cases node.anyOf with
          | some members =>
              simp only [Option.map_none, Option.map_some, counts_ofAnyOf, hnumbered]
              split <;> rfl
          | none =>
              cases node.enum with
              | some values => rfl
              | none => exact counts_ofTypeKeyword

theorem counts_withAdditional (additional : Option (AdditionalProperties Schema))
    (base : Option TypeExpr) :
    (withAdditional (ofAdditional? coerce additional) base).counts
      = if base.isSome then (additional.bind AdditionalProperties.schema?).toList.flatMap
          fun schema => (ofSchema coerce schema).counts
        else [] := by
  rcases additional with _ | ⟨_ | _⟩ | schema
  all_goals cases base with
    | none => rfl
    | some base => simp [withAdditional, ofAdditional?, ofAdditional, AdditionalProperties.schema?]

theorem counts_withNot (excluded : Option Schema) (base : Option TypeExpr) :
    (withNot (ofSchema? coerce excluded) base).counts
      = if base.isSome then excluded.toList.flatMap fun schema => (ofSchema coerce schema).counts
        else [] := by
  cases excluded with
  | none => cases base <;> rfl
  | some schema =>
      cases base with
      | none => rfl
      | some base =>
          simp only [withNot, ofSchema?]
          rw [(appends_ofSchema schema).counts_bind (by split <;> exact appends_pure _)]
          split <;> simp

/-- A node adds its own warning, and then what is found in the schemas inside it. -/
theorem counts_inline : (ofSchema coerce (.inline node)).counts = node.objectMembers?.toList
    ++ node.innerVisits.flatMap fun visit => (ofSchema coerce visit.2).counts := by
  have h : ∀ schema ∈ node.children, Appends (ofSchema coerce schema) :=
    fun schema _ => appends_ofSchema schema
  -- a dictionary around the base does not change whether there is something to exclude from
  have houter : (if (base? coerce node).isSome then node.outerVisits else []).flatMap
        (fun visit => (ofSchema coerce visit.2).counts)
      = (withAdditional (ofAdditional? coerce node.additionalProperties)
            (base? coerce node)).counts
        ++ (withNot (ofSchema? coerce node.not)
            (withDictionary (node.additionalProperties.bind (additionalType? coerce))
              (base? coerce node))).counts := by
    rw [counts_withAdditional, counts_withNot, isSome_withDictionary]
    split
    · rw [SchemaObject.outerVisits, List.flatMap_append, List.flatMap_map, List.flatMap_map]
    · rfl
  rw [ofSchema_inline,
    (appends_ofBase h).counts_bind ((appends_withAdditional h _).bind
      ((appends_withNot h _).bindPure _)),
    (appends_withAdditional h _).counts_bind ((appends_withNot h _).bindPure _),
    counts_bindPure, value_withAdditional, value_ofBase, counts_ofBase, SchemaObject.innerVisits,
    isSome_base?_congr false coerce, List.flatMap_append, houter,
    List.append_assoc]

/-- **Lowering a schema adds its warnings**, in both modes. -/
theorem counts_ofSchema (schema : Schema) : (ofSchema coerce schema).counts = schema.warnings := by
  induction schema using Schema.induction with
  | step schema ih =>
      cases schema with
      | reference pointer => rw [Schema.warnings, Schema.visits_reference]; rfl
      | inline node =>
          rw [counts_inline, Schema.warnings_inline]
          exact congrArg _ (List.flatMap_congr fun visit hvisit =>
            ih visit.2 (SchemaObject.mem_children_of_mem_innerVisits hvisit))

/-! ### The warnings of a run -/

/-- **A run collects the warnings of the schema, in both modes the same.** It has a type in the one
mode if it has one in the other, and neither the type nor what is added depends on what was found
before, which stays in front.  There is a warning for each visit of a node that asks for one, an
outer node comes before those inside it, and no way is gone twice.  Two ways end at one place only
if a node on them is made an object or an array twice. -/
theorem warnings_collected (schema : Schema) :
    ((lowered true schema).isSome ↔ (lowered false schema).isSome)
      ∧ (∀ coerce findings, (ofSchema coerce schema).run findings
          = (lowered coerce schema, { findings with
              warnings := findings.warnings
                ++ (schema.visits.filterMap fun visit => visit.2.objectMembers?).map
                  (Warning.mk findings.location) }))
      ∧ Schema.OuterFirst [] (schema.visits.map Prod.fst)
      ∧ (schema.visits.map Prod.fst).Nodup
      ∧ ((∀ visit ∈ schema.visits, visit.2.MadeOnce) →
          (schema.visits.map fun visit => visit.1.map SchemaStep.place).Nodup) := by
  refine ⟨?_, fun coerce findings => ?_, Schema.outerFirst_visits schema, ?_, fun honce => ?_⟩
  · rw [← Bool.eq_iff_iff, Option.isSome_eq_isSome]
    exact lowered_eq_none_congr schema
  · have hgives : Gives (ofSchema coerce schema) (lowered coerce schema) schema.warnings := by
      have h : Appends (ofSchema coerce schema) := appends_ofSchema schema
      rw [← counts_ofSchema]
      exact h.gives
    exact hgives findings
  · have hways : (schema.visits.map fun visit => visit.1.map id).Nodup :=
      Schema.nodup_ways fun visit _ => visit.2.nodup_innerVisits
    simpa using hways
  · exact Schema.nodup_ways fun visit hvisit => visit.2.nodup_places (honce visit hvisit)

/-- A list of choices between two objects, or null. -/
theorem warnings_collected_list :
    let entry : SchemaObject := { type := some (.single "object") }
    let choice : SchemaObject := { anyOf := some [.inline entry, .inline entry] }
    let node : SchemaObject :=
      { type := some (.several ["array", "null"]), items := some (.inline choice) }
    let schema : Schema := .inline node
    (∀ visit ∈ schema.visits, visit.2.MadeOnce)
      ∧ (schema.visits.map fun visit => visit.1.map SchemaStep.place).Nodup
      ∧ ((ofSchema true schema).run ⟨"GET /pets", [⟨"GET /pets", 3⟩]⟩).2.warnings
        = [⟨"GET /pets", 3⟩, ⟨"GET /pets", 2⟩] := by
  intro entry choice node schema
  have hentry : Schema.visits (.inline entry) = [([], entry)] := by
    rw [Schema.visits_inline]
    rfl
  have hchoice : Schema.visits (.inline choice)
      = [([], choice), ([.anyOf 0], entry), ([.anyOf 1], entry)] := by
    have hinner : choice.innerVisits = [(.anyOf 0, .inline entry), (.anyOf 1, .inline entry)] := rfl
    rw [Schema.visits_inline, hinner]
    simp [hentry]
  have hvisits : schema.visits = [([], node), ([.items 0], choice), ([.items 0, .anyOf 0], entry),
      ([.items 0, .anyOf 1], entry)] := by
    have hinner : node.innerVisits = [(.items 0, .inline choice)] := rfl
    rw [Schema.visits_inline, hinner]
    simp [hchoice]
  have honce : ∀ visit ∈ schema.visits, visit.2.MadeOnce := by
    rw [hvisits]
    simp only [List.forall_mem_cons]
    refine ⟨?_, ?_, ?_, ?_, nofun⟩ <;> exact ⟨by decide, by decide⟩
  obtain ⟨-, hrun, -, -, hplaces⟩ := warnings_collected schema
  refine ⟨honce, hplaces honce, ?_⟩
  rw [hrun, hvisits]
  rfl

/-- A list of type names may repeat one, and the choice inside is visited for both. -/
theorem warnings_repeated :
    let entry : Schema := .inline { type := some (.single "object") }
    let choice : Schema := .inline { anyOf := some [entry, entry] }
    let schema : Schema :=
      .inline { type := some (.several ["array", "array"]), items := some choice }
    schema.children = [choice] ∧ choice.children = [entry, entry] ∧ entry.children = []
      ∧ ∀ coerce, (Inspect.runAt "GET /pets" (ofSchema coerce schema)).2
        = [⟨"GET /pets", 2⟩, ⟨"GET /pets", 2⟩] := by
  refine ⟨rfl, rfl, rfl, fun coerce => ?_⟩
  cases coerce <;> rfl

end TypeExpr
end ApiTypings
