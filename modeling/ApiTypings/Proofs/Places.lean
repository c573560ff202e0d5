/-
What is read where in a document.

A decoder is a function, and a function does not tell what it reads in which part of a value.  So
the things that a place can be read as have names here: `Place.decoder` is the decoder for a
place, and `Place.fields?` lists, for the places that are read as records, what is read under
which name.  The table is tied to the decoders once, in `exists_record`: the record of a place
has the fields of its list, in that order, each field read as the list says.

The fields of a record also keep out of each other's way, since each of them writes a part of
its own.  So the order in which they are read does not show in the result.
-/
import Mathlib
import ApiTypings.OpenApi.Format
import ApiTypings.Proofs.Decoding

namespace ApiTypings.OpenApi

open Decoder

/-- What a place in a document is read as. -/
inductive Place
  | text
  | flag
  | raw
  | scalarText
  | scalarTexts
  | typeName
  | location
  /-- the null under a location that is written as an object -/
  | unit
  | license
  | contact
  | info
  | serverVariable
  | server
  | schemaObject
  | schema
  | additional
  | parameter
  | mediaType
  | requestBody
  | response
  | operation
  | slot
  | pathItem
  | components
  | description
  | optional (place : Place)
  | list (place : Place)
  | entries (place : Place)
  | referable (place : Place)

namespace Place

/-- What comes of reading a place. -/
def Value : Place → Type
  | text | scalarText => String
  | flag => Bool
  | raw => Json
  | scalarTexts => List String
  | typeName => TypeName
  | location => Location
  | unit => Unit
  | license => License
  | contact => Contact
  | info => Info
  | serverVariable => ServerVariable
  | server => Server
  | schemaObject => SchemaObject
  | schema => Schema
  | additional => AdditionalProperties Schema
  | parameter => Parameter
  | mediaType => MediaType
  | requestBody => RequestBody
  | response => Response
  | operation => Operation
  | slot => Slot
  | pathItem => PathItem
  | components => Components
  | description => Description
  | optional place => Option place.Value
  | list place => List place.Value
  | entries place => List (String × place.Value)
  | referable place => Referable place.Value

/-- A null, and nothing else. -/
def null : Decoder Unit
  | .null => .ok ()
  | found => fail (.wrongType found "unit")

/-- The decoder of a place. -/
def decoder : (place : Place) → Decoder place.Value
  | text => Decoder.text
  | flag => Decoder.flag
  | raw => Decoder.raw
  | scalarText => OpenApi.scalarText
  | scalarTexts => OpenApi.scalarTexts
  | typeName => OpenApi.typeName
  | location => OpenApi.location
  | unit => null
  | license => OpenApi.license.decode
  | contact => OpenApi.contact.decode
  | info => OpenApi.info.decode
  | serverVariable => OpenApi.serverVariable.decode
  | server => OpenApi.server.decode
  | schemaObject => (OpenApi.schemaObject OpenApi.schema).decode
  | schema => OpenApi.schema
  | additional => additionalProperties OpenApi.schema
  | parameter => OpenApi.parameter.decode
  | mediaType => OpenApi.mediaType.decode
  | requestBody => OpenApi.requestBody.decode
  | response => OpenApi.response.decode
  | operation => OpenApi.operation.decode
  | slot => OpenApi.slot
  | pathItem => OpenApi.pathItem.decode
  | components => OpenApi.components.decode
  | description => OpenApi.description.decode
  | optional place => Decoder.optional place.decoder
  | list place => Decoder.list place.decoder
  | entries place => Decoder.entries place.decoder
  | referable place => Decoder.referable place.decoder

/-- The fields of a place that is read as a record, in the order of their declaration, with what
each is read as. -/
def fields? : Place → Option (List (String × Place))
  | license => some [("name", optional text)]
  | contact => some [("name", optional text), ("email", optional text)]
  | info => some [
      ("title", scalarText),
      ("description", optional text),
      ("summary", optional text),
      ("version", scalarText),
      ("license", optional license),
      ("contact", optional contact)]
  | serverVariable => some [("enum", optional scalarTexts), ("default", scalarText)]
  | server => some [("url", text), ("variables", entries serverVariable)]
  | schemaObject => some [
      ("title", optional text),
      ("description", optional text),
      ("type", optional typeName),
      ("nullable", optional flag),
      ("not", optional schema),
      ("additionalProperties", optional additional),
      ("allOf", optional (list schema)),
      ("oneOf", optional (list schema)),
      ("anyOf", optional (list schema)),
      ("enum", optional (list raw)),
      ("properties", optional (entries schema)),
      ("required", list text),
      ("items", optional schema),
      ("deprecated", flag),
      ("example", raw),
      ("examples", optional raw),
      ("default", raw)]
  | parameter => some [
      ("name", text),
      ("in", location),
      ("required", flag),
      ("allowEmptyValue", flag),
      ("schema", optional schema)]
  | mediaType => some [("schema", optional schema)]
  | requestBody => some [("content", entries mediaType), ("required", flag)]
  | response => some [("content", entries mediaType)]
  | operation => some [
      ("summary", optional text),
      ("description", optional text),
      ("deprecated", flag),
      ("parameters", list (referable parameter)),
      ("requestBody", optional (referable requestBody)),
      ("responses", optional (entries (referable response)))]
  | pathItem => some (
      [("$ref", optional text), ("parameters", optional (list (referable parameter)))]
        ++ Method.all.map fun method => (method.lowerName, slot))
  | components => some [("schemas", entries schema)]
  | description => some [
      ("info", info),
      ("servers", list server),
      ("paths", entries pathItem),
      ("components", components)]
  | _ => none

end Place

/-! ### Records that are laid out as in the table -/

variable {α β σ : Type}

/-- The field has the name of the entry, and reads what the entry says. -/
def ReadsAs (field : Decoder.Field σ) (entry : String × Place) : Prop :=
  ∃ presence store, field = Decoder.field entry.1 presence entry.2.decoder store

theorem ReadsAs.name {field : Decoder.Field σ} {entry : String × Place} (h : ReadsAs field entry) :
    field.name = entry.1 := by
  obtain ⟨_, _, rfl⟩ := h
  rfl

variable {all : List (Decoder.Field σ)} {fields : List (String × Place)}

/-- The field that is found under a key is the one that the table has under it. -/
theorem exists_lookup_of_find? (h : List.Forall₂ ReadsAs all fields) {key : String}
    {found : Decoder.Field σ} (hfound : all.find? (fun field => field.name == key) = some found) :
    ∃ place, Json.lookup key fields = some place ∧ ReadsAs found (key, place) := by
  induction h with
  | nil => cases hfound
  | @cons first entry _ _ hfirst _ ih =>
      obtain ⟨name, place⟩ := entry
      have hname : first.name = name := hfirst.name
      rw [List.find?_cons] at hfound
      rw [Json.lookup]
      split at hfound
      · rename_i hkey
        cases hfound
        obtain rfl : name = key := hname ▸ beq_iff_eq.mp hkey
        exact ⟨place, if_pos rfl, hfirst⟩
      · rename_i hkey
        rw [if_neg (hname ▸ beq_eq_false_iff_ne.mp hkey)]
        exact ih hfound

theorem exists_getElem?_of_getElem? (h : List.Forall₂ ReadsAs all fields) {i : Nat}
    {found : Decoder.Field σ} (hfound : all[i]? = some found) :
    ∃ entry, fields[i]? = some entry ∧ ReadsAs found entry := by
  obtain ⟨hlength, hreads⟩ := List.forall₂_iff_get.mp h
  obtain ⟨hi, rfl⟩ := List.getElem?_eq_some_iff.mp hfound
  have hi' : i < fields.length := hlength ▸ hi
  exact ⟨fields[i], List.getElem?_eq_getElem hi', hreads i hi hi'⟩

/-- Two fields that write different parts of a record. -/
def Commutes (first second : Decoder.Field σ) : Prop :=
  ∀ a b f g, first.read a = .ok f → second.read b = .ok g → ∀ record, f (g record) = g (f record)

/-- The record has the fields of the list, under different names, and they commute. -/
structure LaidOut (record : Record σ) (fields : List (String × Place)) : Prop where
  reads : List.Forall₂ ReadsAs record.fields fields
  names : (fields.map Prod.fst).Nodup
  commutes : record.fields.Pairwise Commutes

theorem commutes_field {name name' : String} {presence presence' : Presence}
    {decoder : Decoder α} {decoder' : Decoder β} {store : α → σ → σ} {store' : β → σ → σ}
    (h : ∀ a b record, store a (store' b record) = store' b (store a record)) :
    Commutes (field name presence decoder store) (field name' presence' decoder' store') := by
  intro a b f g hf hg record
  obtain ⟨x, -, rfl⟩ := field_read_eq_ok.mp hf
  obtain ⟨y, -, rfl⟩ := field_read_eq_ok.mp hg
  exact h x y record

theorem Commutes.symm {first second : Decoder.Field σ} (h : Commutes first second) :
    Commutes second first :=
  fun a b f g hf hg record => (h b a g f hg hf record).symm

theorem withSlot_comm {first second : Method} (h : first ≠ second) (a b : Slot) (item : PathItem) :
    (item.withSlot second b).withSlot first a = (item.withSlot first a).withSlot second b := by
  simp only [PathItem.withSlot, PathItem.mk.injEq, true_and]
  funext method
  by_cases hfirst : method = first
  · subst hfirst
    rw [if_pos rfl, if_neg h, if_pos rfl]
  · rw [if_neg hfirst, if_neg hfirst]

/-- The table has an entry for each method. -/
theorem laidOut_pathItem {fields : List (String × Place)}
    (hfields : Place.pathItem.fields? = some fields) : LaidOut OpenApi.pathItem fields := by
  cases hfields
  refine ⟨?reads, by decide, ?commutes⟩
  case reads =>
    refine List.rel_append (.cons ⟨_, _, rfl⟩ (.cons ⟨_, _, rfl⟩ .nil)) ?_
    rw [List.forall₂_map_left_iff, List.forall₂_map_right_iff, List.forall₂_same]
    exact fun method _ => ⟨_, _, rfl⟩
  case commutes =>
    refine List.pairwise_append.mpr ⟨?own, ?methods, ?across⟩
    case own => exact List.pairwise_pair.mpr (commutes_field fun _ _ _ => rfl)
    case methods =>
      refine List.pairwise_map.mpr (List.Pairwise.imp ?_ (by decide : Method.all.Nodup))
      exact fun hne => commutes_field (withSlot_comm hne)
    case across =>
      simp only [List.forall_mem_cons, List.forall_mem_map, List.not_mem_nil, false_implies,
        implies_true, and_true]
      exact ⟨fun _ _ => commutes_field fun _ _ _ => rfl,
        fun _ _ => commutes_field fun _ _ _ => rfl⟩

namespace Place

/-- The record of a place that is read as one. -/
def record? : (place : Place) → Option (Record place.Value)
  | license => some OpenApi.license
  | contact => some OpenApi.contact
  | info => some OpenApi.info
  | serverVariable => some OpenApi.serverVariable
  | server => some OpenApi.server
  | schemaObject => some (OpenApi.schemaObject OpenApi.schema)
  | parameter => some OpenApi.parameter
  | mediaType => some OpenApi.mediaType
  | requestBody => some OpenApi.requestBody
  | response => some OpenApi.response
  | operation => some OpenApi.operation
  | pathItem => some OpenApi.pathItem
  | components => some OpenApi.components
  | description => some OpenApi.description
  | _ => none

variable {place : Place} {fields : List (String × Place)}

theorem laidOut {record : Record place.Value} (hrecord : place.record? = some record)
    (hfields : place.fields? = some fields) : LaidOut record fields := by
  cases place with
  | pathItem =>
      cases hrecord
      exact laidOut_pathItem hfields
  | _ =>
      cases hrecord
      all_goals
        cases hfields
        refine ⟨?_, by decide, ?_⟩
        · dsimp only [Place.Value]
          repeat' first | exact .nil | refine .cons ⟨_, _, rfl⟩ ?_
        · dsimp only [Place.Value, OpenApi.license, OpenApi.contact, OpenApi.info,
            OpenApi.serverVariable, OpenApi.server, OpenApi.schemaObject, OpenApi.parameter,
            OpenApi.mediaType, OpenApi.requestBody, OpenApi.response, OpenApi.operation,
            OpenApi.components, OpenApi.description]
          simp only [List.pairwise_cons, List.forall_mem_cons, List.not_mem_nil, false_implies,
            implies_true, List.Pairwise.nil, and_true]
          all_goals
            and_intros
            all_goals exact commutes_field fun _ _ _ => rfl

/-- **A place with known fields is read as a record that has these fields.** -/
theorem exists_record (h : place.fields? = some fields) :
    ∃ record, place.decoder = record.decode ∧ LaidOut record fields := by
  have hrecord : ∃ record, place.record? = some record ∧ place.decoder = record.decode := by
    cases place with
    | _ =>
      cases h
      all_goals exact ⟨_, rfl, rfl⟩
  obtain ⟨record, hrecord, hdecoder⟩ := hrecord
  exact ⟨record, hdecoder, laidOut hrecord h⟩

end Place
end ApiTypings.OpenApi
