/-
The names under which a document describes things are distinct.

A document is decoded from a tree whose objects have distinct keys.  So the properties of every
schema have distinct names, at any depth and wherever the schema stands: under a parameter,
a body, a response, a component, in place or behind a reference.  `Distinct` says this of
each kind of thing that holds schemas.
-/
import Mathlib
import ApiTypings.OpenApi.Document
import ApiTypings.Proofs.Decoding
import ApiTypings.Proofs.SchemaStructure

namespace ApiTypings

open OpenApi Decoder

namespace Referable

/-- The thing in place, if there is one, has the property. -/
def InPlace {α : Type} (P : α → Prop) (entry : Referable α) : Prop :=
  ∀ item, entry = .inline item → P item

end Referable

namespace OpenApi

/-! ### Schemas -/

/-- The properties of a node have distinct names. -/
def Schema.KeysDistinct : Schema → Prop
  | .reference _ => True
  | .inline node =>
    ∀ properties, node.properties = some properties → (properties.map Prod.fst).Nodup

/-- The properties of a node have distinct names, here and inside. -/
def Schema.Distinct (schema : Schema) : Prop := Everywhere KeysDistinct schema

/-- The same, keyword by keyword. -/
structure SchemaObject.Distinct (node : SchemaObject) : Prop where
  not : ∀ schema ∈ node.not, Schema.Distinct schema
  additional : ∀ additional ∈ node.additionalProperties, ∀ schema ∈ additional.schema?,
    Schema.Distinct schema
  allOf : ∀ members ∈ node.allOf, ∀ schema ∈ members, Schema.Distinct schema
  oneOf : ∀ members ∈ node.oneOf, ∀ schema ∈ members, Schema.Distinct schema
  anyOf : ∀ members ∈ node.anyOf, ∀ schema ∈ members, Schema.Distinct schema
  properties : ∀ properties ∈ node.properties,
    (properties.map Prod.fst).Nodup ∧ ∀ property ∈ properties, Schema.Distinct property.2
  items : ∀ schema ∈ node.items, Schema.Distinct schema

theorem SchemaObject.Distinct.inline {node : SchemaObject} (h : node.Distinct) :
    Schema.Distinct (.inline node) := by
  refine Schema.everywhere_iff.mpr ⟨fun properties hproperties => (h.properties _ hproperties).1,
    fun child hchild => ?_⟩
  rcases node.children_cases hchild with hnot | ⟨additional, hadditional, hschema⟩
    | ⟨members, hmembers, hmem⟩ | ⟨members, hmembers, hmem⟩ | ⟨members, hmembers, hmem⟩
    | ⟨properties, key, hproperties, hmem⟩ | hitems
  · exact h.not child hnot
  · exact h.additional additional hadditional child hschema
  · exact h.allOf members hmembers child hmem
  · exact h.oneOf members hmembers child hmem
  · exact h.anyOf members hmembers child hmem
  · exact (h.properties properties hproperties).2 _ hmem
  · exact h.items child hitems

theorem ensures_additionalProperties {schema : Decoder Schema}
    (h : Ensures schema Schema.Distinct) : Ensures (additionalProperties schema)
      fun additional => ∀ values ∈ additional.schema?, Schema.Distinct values := by
  intro value hvalue additional hadditional values hvalues
  unfold additionalProperties at hadditional
  split at hadditional
  · cases hadditional
    cases hvalues
  · split at hadditional
    · rename_i decoded hdecoded
      cases hadditional
      cases hvalues
      exact h value hvalue values hdecoded
    · cases hadditional

theorem ensures_schemaObject {schema : Decoder Schema} (h : Ensures schema Schema.Distinct) :
    Ensures (schemaObject schema).decode SchemaObject.Distinct := by
  have hkeep : ∀ {α : Type} {name : String} {presence : Presence} {decoder : Decoder α}
      {store : α → SchemaObject → SchemaObject},
      (∀ item node, SchemaObject.Distinct node → (store item node).Distinct) →
      (field name presence decoder store).Keeps SchemaObject.Distinct :=
    fun hstore => keeps_field (ensures_true _) fun item node _ => hstore item node
  refine ensures_decode ⟨nofun, nofun, nofun, nofun, nofun, nofun, nofun⟩ ?_
  simp only [schemaObject, List.forall_mem_cons]
  refine ⟨?title, ?description, ?type, ?nullable, ?not, ?additional, ?allOf, ?oneOf, ?anyOf, ?enum,
    ?properties, ?required, ?items, ?deprecated, ?«example», ?examples, ?default, nofun⟩
  case not =>
    exact keeps_field (ensures_optional h) fun _ _ hitem hnode =>
      { hnode with not := hitem }
  case additional =>
    exact keeps_field (ensures_optional (ensures_additionalProperties h)) fun _ _ hitem hnode =>
      { hnode with additional := hitem }
  case allOf =>
    exact keeps_field (ensures_optional (ensures_list h)) fun _ _ hitem hnode =>
      { hnode with allOf := hitem }
  case oneOf =>
    exact keeps_field (ensures_optional (ensures_list h)) fun _ _ hitem hnode =>
      { hnode with oneOf := hitem }
  case anyOf =>
    exact keeps_field (ensures_optional (ensures_list h)) fun _ _ hitem hnode =>
      { hnode with anyOf := hitem }
  case properties =>
    exact keeps_field (ensures_optional (ensures_entries h)) fun _ _ hitem hnode =>
      { hnode with properties := hitem }
  case items =>
    exact keeps_field (ensures_optional h) fun _ _ hitem hnode =>
      { hnode with items := hitem }
  all_goals exact hkeep fun item node hnode => { hnode with }

theorem ensures_schemaWithin (levels : Nat) : Ensures (schemaWithin levels) Schema.Distinct := by
  induction levels with
  | zero => exact fun _ _ _ h => by cases h
  | succ levels ih =>
      intro value hvalue schema hschema
      cases schema with
      | reference pointer => exact Schema.everywhere_iff.mpr ⟨trivial, nofun⟩
      | inline node =>
          exact (ensures_referable (ensures_schemaObject ih) value hvalue _ hschema node rfl).inline

/-- **Decoded schemas have distinct properties at every depth.** -/
theorem ensures_schema : Ensures schema Schema.Distinct :=
  fun value hvalue result hresult => ensures_schemaWithin value.depth value hvalue result hresult

/-! ### What holds schemas -/

def Parameter.Distinct (parameter : Parameter) : Prop :=
  ∀ schema ∈ parameter.schema, Schema.Distinct schema

def MediaType.Distinct (media : MediaType) : Prop :=
  ∀ schema ∈ media.schema, Schema.Distinct schema

def RequestBody.Distinct (body : RequestBody) : Prop :=
  ∀ entry ∈ body.content, entry.2.Distinct

def Response.Distinct (response : Response) : Prop :=
  ∀ entry ∈ response.content, entry.2.Distinct

structure Operation.Distinct (operation : Operation) : Prop where
  parameters : ∀ entry ∈ operation.parameters, entry.InPlace Parameter.Distinct
  requestBody : ∀ entry ∈ operation.requestBody, entry.InPlace RequestBody.Distinct
  responses : ∀ responses ∈ operation.responses, ∀ entry ∈ responses,
    entry.2.InPlace Response.Distinct

structure PathItem.Distinct (item : PathItem) : Prop where
  parameters : ∀ parameters ∈ item.parameters, ∀ entry ∈ parameters,
    entry.InPlace Parameter.Distinct
  slots : ∀ method operation, item.slots method = .operation operation → operation.Distinct

/-- Component schemas also have distinct names. -/
structure Components.Distinct (components : Components) : Prop where
  names : (components.schemas.map Prod.fst).Nodup
  schemas : ∀ entry ∈ components.schemas, Schema.Distinct entry.2

structure Document.Distinct (document : Document) : Prop where
  tree : document.tree.Distinct
  paths : ∀ entry ∈ document.description.paths, entry.2.Distinct
  components : document.description.components.Distinct

theorem ensures_parameter : Ensures parameter.decode Parameter.Distinct := by
  refine ensures_decode nofun ?_
  simp only [parameter, List.forall_mem_cons]
  refine ⟨?name, ?location, ?required, ?allowEmptyValue, ?schema, nofun⟩
  case schema => exact keeps_field (ensures_optional ensures_schema) fun _ _ hitem _ => hitem
  all_goals exact keeps_field (ensures_true _) fun _ _ _ h => h

theorem ensures_mediaType : Ensures mediaType.decode MediaType.Distinct := by
  refine ensures_decode nofun ?_
  simp only [mediaType, List.forall_mem_cons]
  exact ⟨keeps_field (ensures_optional ensures_schema) fun _ _ hitem _ => hitem, nofun⟩

theorem ensures_requestBody : Ensures requestBody.decode RequestBody.Distinct := by
  refine ensures_decode nofun ?_
  simp only [requestBody, List.forall_mem_cons]
  refine ⟨?content, ?required, nofun⟩
  case content => exact keeps_field (ensures_entries ensures_mediaType) fun _ _ hitem _ => hitem.2
  case required => exact keeps_field (ensures_true _) fun _ _ _ h => h

theorem ensures_response : Ensures response.decode Response.Distinct := by
  refine ensures_decode nofun ?_
  simp only [response, List.forall_mem_cons]
  exact ⟨keeps_field (ensures_entries ensures_mediaType) fun _ _ hitem _ => hitem.2, nofun⟩

theorem ensures_parameters :
    Ensures parameters fun entries => ∀ entry ∈ entries, entry.InPlace Parameter.Distinct :=
  ensures_list (ensures_referable ensures_parameter)

theorem ensures_operation : Ensures operation.decode Operation.Distinct := by
  refine ensures_decode ⟨nofun, nofun, nofun⟩ ?_
  simp only [operation, List.forall_mem_cons]
  refine ⟨?summary, ?description, ?deprecated, ?parameters, ?requestBody, ?responses, nofun⟩
  case parameters =>
    exact keeps_field ensures_parameters fun _ _ hitem h => { h with parameters := hitem }
  case requestBody =>
    exact keeps_field (ensures_optional (ensures_referable ensures_requestBody))
      fun _ _ hitem h => { h with requestBody := hitem }
  case responses =>
    exact keeps_field (ensures_optional (ensures_entries (ensures_referable ensures_response)))
      fun _ _ hitem h => { h with responses := fun responses hr => (hitem responses hr).2 }
  all_goals exact keeps_field (ensures_true _) fun _ _ _ h => { h with }

theorem ensures_slot : Ensures slot fun result =>
    ∀ operation, result = .operation operation → operation.Distinct := by
  intro value hvalue result hresult operation hoperation
  subst hoperation
  unfold slot at hresult
  split at hresult
  · rename_i decoded hdecoded
    cases hresult
    exact ensures_optional ensures_operation value hvalue _ hdecoded operation rfl
  · cases hresult
  · cases hresult

theorem ensures_pathItem : Ensures pathItem.decode PathItem.Distinct := by
  refine ensures_decode ⟨nofun, nofun⟩ ?_
  simp only [pathItem, List.forall_mem_append, List.forall_mem_cons, List.forall_mem_map]
  refine ⟨⟨?reference, ?parameters, nofun⟩, ?slots⟩
  case reference => exact keeps_field (ensures_true _) fun _ _ _ h => { h with }
  case parameters =>
    exact keeps_field (ensures_optional ensures_parameters) fun _ _ hitem h =>
      { h with parameters := hitem }
  case slots =>
    intro method _
    refine keeps_field ensures_slot fun slot item hslot hitem => ⟨hitem.parameters, ?_⟩
    intro other operation hoperation
    simp only [PathItem.withSlot] at hoperation
    split at hoperation
    · exact hslot operation hoperation
    · exact hitem.slots other operation hoperation

theorem ensures_components : Ensures components.decode Components.Distinct := by
  refine ensures_decode ⟨List.nodup_nil, nofun⟩ ?_
  simp only [components, List.forall_mem_cons]
  exact ⟨keeps_field (ensures_entries ensures_schema) fun _ _ hitem _ => ⟨hitem.1, hitem.2⟩, nofun⟩

theorem ensures_description : Ensures description.decode fun result =>
    (∀ entry ∈ result.paths, entry.2.Distinct) ∧ result.components.Distinct := by
  refine ensures_decode ⟨nofun, List.nodup_nil, nofun⟩ ?_
  simp only [description, List.forall_mem_cons]
  refine ⟨?info, ?servers, ?paths, ?components, nofun⟩
  case paths =>
    exact keeps_field (ensures_entries ensures_pathItem) fun _ _ hitem h => ⟨hitem.2, h.2⟩
  case components =>
    exact keeps_field ensures_components fun _ _ hitem h => ⟨h.1, hitem⟩
  all_goals exact keeps_field (ensures_true _) fun _ _ _ h => h

/-! ### Documents, in place and behind references -/

/-- **A document that is decoded from a tree with distinct keys has distinct names throughout.** -/
theorem Document.distinct_of_ofJson {tree : Json} {document : Document} (htree : tree.Distinct)
    (h : Document.ofJson tree = .ok document) : document.Distinct := by
  obtain ⟨rfl, hdecoded⟩ := Document.ofJson_eq_ok.mp h
  obtain ⟨hpaths, hcomponents⟩ := ensures_description _ htree _ hdecoded
  exact ⟨htree, hpaths, hcomponents⟩

end OpenApi

namespace Json

theorem distinct_child {reference segment : String} {value found : Json} (hvalue : value.Distinct)
    (h : child reference value segment = .ok found) : found.Distinct := by
  unfold child at h
  split at h
  · cases h
  · split at h
    · rename_i hlookup
      cases h
      exact (distinct_object.mp hvalue).2 _ (mem_of_lookup hlookup)
    · cases h
  · split at h
    · rename_i hitem
      cases h
      obtain ⟨index, -, hindex⟩ := Option.bind_eq_some_iff.mp hitem
      exact distinct_array.mp hvalue _ (List.mem_of_getElem? hindex)
    · cases h
  · cases h

theorem distinct_walk {reference : String} {segments : List String} {value found : Json}
    (hvalue : value.Distinct) (h : walk reference value segments = .ok found) :
    found.Distinct := by
  induction segments generalizing value with
  | nil =>
      cases h
      exact hvalue
  | cons segment segments ih =>
      unfold walk at h
      split at h
      · rename_i next hnext
        exact ih (distinct_child hvalue hnext) h
      · cases h

theorem distinct_resolve {root found : Json} {reference : String} (hroot : root.Distinct)
    (h : resolve root reference = .ok found) : found.Distinct := by
  unfold resolve at h
  split at h
  · cases h
  · exact distinct_walk hroot h

/-- The end of a chain is a value that some reference of the chain points at. -/
theorem distinct_follow {root found : Json} {used : List String} {reference : String}
    (hroot : root.Distinct) (h : follow root used reference = .ok found) : found.Distinct := by
  induction used, reference using follow.induct root with
  | case1 used reference error herror =>
      rw [follow_eq, herror] at h
      cases h
  | case2 used reference value hvalue hnone =>
      rw [follow_eq, hvalue] at h
      simp only [hnone] at h
      cases h
      exact distinct_resolve hroot hvalue
  | case3 used reference value hvalue next hnext hused =>
      rw [follow_eq, hvalue] at h
      simp only [hnext, if_pos hused] at h
      cases h
  | case4 used reference value hvalue next hnext hunused ih =>
      rw [follow_eq, hvalue] at h
      simp only [hnext, if_neg hunused] at h
      exact ih h

end Json

namespace OpenApi

theorem Document.Distinct.target {α : Type} {P : α → Prop} {document : Document}
    (h : document.Distinct) {decoder : Decoder α} (hdecoder : Ensures decoder P)
    {reference : String} {item : α} (hitem : document.target decoder reference = .ok item) :
    P item := by
  unfold Document.target at hitem
  split at hitem
  · rename_i value hvalue
    exact hdecoder value (Json.distinct_follow h.tree hvalue) item (decodeFrom_eq_ok.mp hitem)
  · cases hitem

/-- What is fetched is distinct, whether it stood in place or behind a reference. -/
theorem Document.Distinct.fetch {α : Type} {P : α → Prop} {document : Document}
    (h : document.Distinct) {decoder : Decoder α} (hdecoder : Ensures decoder P)
    {entry : Referable α} (hentry : entry.InPlace P) {item : α}
    (hitem : document.fetch decoder entry = .ok item) : P item := by
  cases entry with
  | inline inner =>
      cases hitem
      exact hentry item rfl
  | reference pointer => exact h.target hdecoder hitem

end OpenApi
end ApiTypings
