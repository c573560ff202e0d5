/-
Faults are where they are said to be.

The path of a fault is put together by the decoders on the way up, each of which adds the step to
the part that it could not read.  So the path can be walked down again, from the value and from
what the value is read as, and the two walks stay side by side: the step that a combinator adds
leads to a part of the value, and to what the combinator reads this part as.  This is `Blames`,
shown of one decoder at a time.  Where a value may be one of two things, a fault is never further
down, and the walk ends.

A run of such steps ends at a node that cannot be read for itself, and for the same cause.
-/
import Mathlib
import ApiTypings.OpenApi.Document
import ApiTypings.Proofs.Places
import ApiTypings.Proofs.PointerPaths

namespace ApiTypings

/-- A step of a decoder, as a step of a walk. -/
def Step.inJson : Step → Json.Step
  | key name => .key name
  | index position => .index position

/-- The fault of a part, as a fault of the whole. -/
def Fault.under (step : Step) (fault : Fault) : Fault := ⟨step :: fault.path, fault.cause⟩

/-- A computation fails in its first step or goes on and fails then. -/
theorem bind_eq_error {ε α β : Type} {first : Except ε α} {next : α → Except ε β} {error : ε} :
    (first >>= next) = .error error
      ↔ first = .error error ∨ ∃ value, first = .ok value ∧ next value = .error error := by
  cases first with
  | error found =>
      show (Except.error found : Except ε β) = _ ↔ _
      simp
  | ok value =>
      refine ⟨fun h => .inr ⟨value, rfl, h⟩, fun h => ?_⟩
      rcases h with h | ⟨_, hvalue, h⟩
      · cases h
      · cases hvalue
        exact h

theorem Json.distinct_part {value part : Json} {step : Json.Step} (hvalue : value.Distinct)
    (hpart : value.part? step = some part) : part.Distinct := by
  cases step with
  | key name =>
      cases value with
      | object fields => exact (distinct_object.mp hvalue).2 _ (mem_of_lookup hpart)
      | _ => cases hpart
  | index position =>
      cases value with
      | array items => exact distinct_array.mp hvalue _ (List.mem_of_getElem? hpart)
      | _ => cases hpart

namespace OpenApi

open Decoder

namespace Place

/-- What a record reads under a name, or in the position of a field. -/
def field? (place : Place) : Step → Option Place
  | .key name => place.fields?.bind (Json.lookup name)
  | .index position => place.fields?.bind fun fields => (fields[position]?).map Prod.snd

/-- What a part of a value is read as, when the value is read as `place`. -/
def part? : Place → Step → Option Place
  | list item, .index _ => some item
  | entries entry, .key _ => some entry
  | optional place, step => place.part? step
  | slot, step => operation.field? step
  | location, .key _ => some unit
  | place, step => place.field? step

/-- What the node at the end of a path is read as. -/
def at? : Place → List Step → Option Place
  | place, [] => some place
  | place, step :: path => (place.part? step).bind fun inner => inner.at? path

end Place

variable {α β σ : Type} {parts : Step → Option Place}

/-- The fault of a value is its own, or it is the fault of a part. -/
inductive BlamedOn (value : Json) (parts : Step → Option Place) : Fault → Prop
  | itself (cause : Cause) : BlamedOn value parts ⟨[], cause⟩
  | part {step : Step} {part : Json} {inner : Place} {fault : Fault}
      (hpart : value.part? step.inJson = some part) (hinner : parts step = some inner)
      (hfault : inner.decoder part = .error fault) : BlamedOn value parts (fault.under step)

/-- Every fault of the decoder is that of the value or of a part. -/
def Blames (decoder : Decoder α) (parts : Step → Option Place) : Prop :=
  ∀ value, value.Distinct → ∀ fault, decoder value = .error fault → BlamedOn value parts fault

theorem within_eq_error {step : Step} {result : Except Fault α} {fault : Fault} :
    within step result = .error fault
      ↔ ∃ inner, result = .error inner ∧ inner.under step = fault := by
  cases result <;> simp [within, Fault.under]

/-! ### Decoders that fail at the value only -/

theorem blames_text : Blames text parts := by
  intro value _ fault hfault
  cases value <;> cases hfault
  all_goals exact .itself _

theorem blames_flag : Blames flag parts := by
  intro value _ fault hfault
  cases value <;> cases hfault
  all_goals exact .itself _

theorem blames_null : Blames Place.null parts := by
  intro value _ fault hfault
  cases value <;> cases hfault
  all_goals exact .itself _

theorem blames_referable {decoder : Decoder α} : Blames (referable decoder) parts := by
  intro value _ fault hfault
  unfold referable at hfault
  split at hfault
  · cases hfault
  · split at hfault
    · cases hfault
    · cases hfault
      exact .itself _

theorem blames_schemaWithin (levels : Nat) : Blames (schemaWithin levels) parts := by
  cases levels with
  | zero =>
      intro value _ fault hfault
      cases hfault
      exact .itself _
  | succ levels => exact blames_referable

theorem blames_schema : Blames schema parts :=
  fun value => blames_schemaWithin value.depth value

theorem blames_additionalProperties {decoder : Decoder Schema} :
    Blames (additionalProperties decoder) parts := by
  intro value _ fault hfault
  unfold additionalProperties at hfault
  split at hfault
  · cases hfault
  · split at hfault
    · cases hfault
    · cases hfault
      exact .itself _

theorem blames_typeName : Blames typeName parts := by
  intro value _ fault hfault
  unfold typeName at hfault
  split at hfault
  · cases hfault
  · split at hfault
    · cases hfault
    · cases hfault
      exact .itself _

/-- Any items do, so that only the absence of a list can be a fault. -/
theorem blames_scalarTexts : Blames scalarTexts parts := by
  have hitems : ∀ (index : Nat) (values : List Json), items raw index values = .ok values := by
    intro index values
    induction values generalizing index with
    | nil => rfl
    | cons value values ih => rw [items, ih]; rfl
  intro value _ fault hfault
  unfold scalarTexts at hfault
  cases value with
  | array values =>
      rw [list, hitems] at hfault
      cases hfault
  | _ =>
      cases hfault
      exact .itself _

theorem blames_locationNamed {value : Json} {name : String} {fault : Fault}
    (hfault : locationNamed name = .error fault) : BlamedOn value parts fault := by
  unfold locationNamed at hfault
  split at hfault
  · cases hfault
  · cases hfault
    exact .itself _

/-! ### Decoders that go down -/

theorem blames_location : Blames location Place.location.part? := by
  intro value _ fault hfault
  unfold location at hfault
  split at hfault
  · exact blames_locationNamed hfault
  · rename_i name found _
    rcases bind_eq_error.mp hfault with hfault | ⟨_, -, hfault⟩
    · exact blames_locationNamed hfault
    · split at hfault
      · cases hfault
      · rename_i hnull
        obtain ⟨inner, hinner, rfl⟩ := within_eq_error.mp hfault
        have hpart : (Json.object [(name, found)]).part? (.key name) = some found := if_pos rfl
        refine .part hpart rfl ?_
        cases hinner
        cases found with
        | null => exact absurd rfl hnull
        | _ => rfl
  · cases hfault
    exact .itself _
  · cases hfault
    exact .itself _

theorem blames_optional {decoder : Decoder α} (h : Blames decoder parts) :
    Blames (Decoder.optional decoder) parts := by
  intro value hvalue fault hfault
  unfold Decoder.optional at hfault
  split at hfault
  · cases hfault
  · split at hfault
    · cases hfault
    · rename_i hdecoder
      cases hfault
      exact h value hvalue _ hdecoder

theorem items_eq_error {decoder : Decoder α} {index : Nat} {values : List Json} {fault : Fault}
    (hfault : items decoder index values = .error fault) :
    ∃ i item inner, values[i]? = some item ∧ decoder item = .error inner
      ∧ inner.under (.index (index + i)) = fault := by
  induction values generalizing index with
  | nil => cases hfault
  | cons value values ih =>
      rcases bind_eq_error.mp hfault with hfault | ⟨_, -, hfault⟩
      · obtain ⟨inner, hinner, rfl⟩ := within_eq_error.mp hfault
        exact ⟨0, value, inner, rfl, hinner, rfl⟩
      · rcases bind_eq_error.mp hfault with hfault | ⟨_, -, hfault⟩
        · obtain ⟨i, item, inner, hitem, hinner, rfl⟩ := ih hfault
          exact ⟨i + 1, item, inner, hitem, hinner, by rw [Nat.add_right_comm]; rfl⟩
        · cases hfault

theorem blames_list (place : Place) :
    Blames (list place.decoder) (Place.list place).part? := by
  intro value _ fault hfault
  cases value with
  | array values =>
      obtain ⟨i, item, inner, hitem, hinner, rfl⟩ := items_eq_error hfault
      rw [Nat.zero_add]
      exact .part hitem rfl hinner
  | _ =>
      cases hfault
      exact .itself _

theorem entriesOf_eq_error {decoder : Decoder α} {entries : List (String × Json)} {fault : Fault}
    (hfault : entriesOf decoder entries = .error fault) :
    ∃ key item inner, (key, item) ∈ entries ∧ decoder item = .error inner
      ∧ inner.under (.key key) = fault := by
  induction entries with
  | nil => cases hfault
  | cons entry entries ih =>
      obtain ⟨key, value⟩ := entry
      rcases bind_eq_error.mp hfault with hfault | ⟨_, -, hfault⟩
      · obtain ⟨inner, hinner, rfl⟩ := within_eq_error.mp hfault
        exact ⟨key, value, inner, List.mem_cons_self, hinner, rfl⟩
      · rcases bind_eq_error.mp hfault with hfault | ⟨_, -, hfault⟩
        · obtain ⟨key, item, inner, hitem, hinner, rfl⟩ := ih hfault
          exact ⟨key, item, inner, List.mem_cons_of_mem _ hitem, hinner, rfl⟩
        · cases hfault

theorem blames_entries (place : Place) :
    Blames (entries place.decoder) (Place.entries place).part? := by
  intro value hvalue fault hfault
  cases value with
  | object entries =>
      obtain ⟨key, item, inner, hitem, hinner, rfl⟩ := entriesOf_eq_error hfault
      exact .part (Json.lookup_of_mem (Json.distinct_object.mp hvalue).1 hitem) rfl hinner
  | _ =>
      cases hfault
      exact .itself _

/-! ### Records -/

theorem readEntries_eq_error {record : Record σ} {entries : List (String × Json)} {start : σ}
    {fault : Fault} (hfault : record.readEntries entries start = .error fault) :
    ∃ key item field inner, (key, item) ∈ entries
      ∧ record.fields.find? (fun field => field.name == key) = some field
      ∧ field.read item = .error inner ∧ inner.under (.key key) = fault := by
  induction entries generalizing start with
  | nil => cases hfault
  | cons entry entries ih =>
      obtain ⟨key, item⟩ := entry
      rw [Record.readEntries] at hfault
      split at hfault
      · obtain ⟨key', item', field, inner, hitem, h⟩ := ih hfault
        exact ⟨key', item', field, inner, List.mem_cons_of_mem _ hitem, h⟩
      · rename_i field hfield
        rcases bind_eq_error.mp hfault with hfault | ⟨_, -, hfault⟩
        · obtain ⟨inner, hinner, rfl⟩ := within_eq_error.mp hfault
          exact ⟨key, item, field, inner, List.mem_cons_self, hfield, hinner, rfl⟩
        · obtain ⟨key', item', field, inner, hitem, h⟩ := ih hfault
          exact ⟨key', item', field, inner, List.mem_cons_of_mem _ hitem, h⟩

/-- The array is too long or too short, or one of its items does not do for its field. -/
theorem readItems_eq_error {record : Record σ} {length index : Nat}
    {fields : List (Decoder.Field σ)} {values : List Json} {start : σ} {fault : Fault}
    (hfault : record.readItems length index fields values start = .error fault) :
    fault.path = [] ∨ ∃ i item, ∃ field : Decoder.Field σ, ∃ inner, values[i]? = some item
      ∧ fields[i]? = some field ∧ field.read item = .error inner
      ∧ inner.under (.index (index + i)) = fault := by
  induction fields generalizing index values start with
  | nil =>
      cases values <;> cases hfault
      exact .inl rfl
  | cons field fields ih =>
      cases values with
      | nil =>
          rw [Record.readItems] at hfault
          split at hfault
          · rcases ih hfault with hhere | ⟨i, item, _, _, hitem, _⟩
            · exact .inl hhere
            · cases hitem
          · cases hfault
            exact .inl rfl
      | cons value values =>
          rcases bind_eq_error.mp hfault with hfault | ⟨_, -, hfault⟩
          · obtain ⟨inner, hinner, rfl⟩ := within_eq_error.mp hfault
            exact .inr ⟨0, value, field, inner, rfl, rfl, hinner, rfl⟩
          · rcases ih hfault with hhere | ⟨i, item, field, inner, hitem, hfield, hinner, rfl⟩
            · exact .inl hhere
            · refine .inr ⟨i + 1, item, field, inner, hitem, hfield, hinner, ?_⟩
              rw [Nat.add_right_comm]
              rfl

theorem ReadsAs.decoder_eq_error {field : Decoder.Field σ} {entry : String × Place}
    (h : ReadsAs field entry) {item : Json} {fault : Fault}
    (hfault : field.read item = .error fault) : entry.2.decoder item = .error fault := by
  obtain ⟨presence, store, rfl⟩ := h
  simp only [field] at hfault
  split at hfault
  · cases hfault
  · rename_i hdecoder
    cases hfault
    exact hdecoder

/-- A record that is laid out as in the table blames what the table says. -/
theorem blames_decode {record : Record σ} {place : Place} {fields : List (String × Place)}
    (hfields : place.fields? = some fields) (h : LaidOut record fields) :
    Blames record.decode place.field? := by
  intro value hvalue fault hfault
  cases value with
  | object entries =>
      rcases bind_eq_error.mp hfault with hfault | ⟨_, -, hfault⟩
      · obtain ⟨key, item, field, inner, hitem, hfield, hinner, rfl⟩ :=
          readEntries_eq_error hfault
        obtain ⟨reader, hreader, hreads⟩ := exists_lookup_of_find? h.reads hfield
        have hfield : place.field? (.key key) = some reader := by
          rw [Place.field?, hfields]
          exact hreader
        exact .part (Json.lookup_of_mem (Json.distinct_object.mp hvalue).1 hitem) hfield
          (hreads.decoder_eq_error hinner)
      · split at hfault
        · cases hfault
          exact .itself _
        · cases hfault
  | array items =>
      rcases readItems_eq_error hfault with hhere
        | ⟨i, item, field, inner, hitem, hfield, hinner, rfl⟩
      · obtain ⟨path, cause⟩ := fault
        obtain rfl : path = [] := hhere
        exact .itself cause
      · obtain ⟨⟨name, reader⟩, hreader, hreads⟩ := exists_getElem?_of_getElem? h.reads hfield
        rw [Nat.zero_add]
        have hfield : place.field? (.index i) = some reader := by
          simp only [Place.field?, hfields, Option.bind_some, hreader, Option.map_some]
        exact .part hitem hfield (hreads.decoder_eq_error hinner)
  | _ =>
      cases hfault
      exact .itself _

/-! ### Places -/

namespace Place

/-- What is read as a record has the parts that its fields are read from. -/
theorem blames_of_fields? {place : Place} {fields : List (String × Place)}
    (hfields : place.fields? = some fields) : Blames place.decoder place.field? := by
  obtain ⟨record, hdecoder, h⟩ := exists_record hfields
  rw [hdecoder]
  exact blames_decode hfields h

/-- **A place that cannot be read is at fault itself, or one of its parts is.** -/
theorem blames (place : Place) : Blames place.decoder place.part? := by
  induction place with
  | text => exact blames_text
  | flag => exact blames_flag
  | raw | scalarText => exact fun _ _ _ hfault => nomatch hfault
  | scalarTexts => exact blames_scalarTexts
  | typeName => exact blames_typeName
  | location => exact blames_location
  | unit => exact blames_null
  | schema => exact blames_schema
  | additional => exact blames_additionalProperties
  | slot =>
      have hoperation : Blames operation.decoder operation.field? := blames_of_fields? rfl
      intro value hvalue fault hfault
      simp only [decoder, OpenApi.slot] at hfault
      split at hfault
      · cases hfault
      · cases hfault
      · rename_i hoptional
        cases hfault
        exact blames_optional hoperation value hvalue _ hoptional
  | optional place ih => exact blames_optional ih
  | list place => exact blames_list place
  | entries place => exact blames_entries place
  | referable place => exact blames_referable
  | _ => exact blames_of_fields? rfl

variable {place : Place}

/-- **The path of a fault ends at a node that is at fault by itself.** -/
theorem exists_node_of_eq_error {value : Json} (hvalue : value.Distinct) {fault : Fault}
    (hfault : place.decoder value = .error fault) :
    ∃ node inner, value.node? (fault.path.map Step.inJson) = some node
      ∧ place.at? fault.path = some inner ∧ inner.decoder node = .error ⟨[], fault.cause⟩ := by
  obtain ⟨path, cause⟩ := fault
  induction path generalizing place value with
  | nil => exact ⟨value, place, rfl, rfl, hfault⟩
  | cons step path ih =>
      generalize hwhole : (⟨step :: path, cause⟩ : Fault) = whole at hfault
      cases place.blames value hvalue whole hfault with
      | itself => cases hwhole
      | part hpart hinner hbelow =>
          cases hwhole
          obtain ⟨node, inner, hnode, hat, hcause⟩ :=
            ih (Json.distinct_part hvalue hpart) hbelow
          refine ⟨node, inner, ?_, ?_, hcause⟩
          · exact Option.bind_eq_some_iff.mpr ⟨_, hpart, hnode⟩
          · exact Option.bind_eq_some_iff.mpr ⟨_, hinner, hat⟩

/-- A failure to decode, as it is told. -/
def malformedAt (path message : String) : String :=
  "malformed document at JSON path " ++ path ++ ": " ++ message

theorem message_malformed (origin : String) (fault : Fault) :
    (Failure.malformed origin fault).message
      = malformedAt (fault.place origin) fault.cause.message := rfl

theorem decodeFrom_eq_error {value : Json} {fault : Fault} (origin : String)
    (h : place.decoder value = .error fault) :
    decodeFrom origin place.decoder value = .error (.malformed origin fault) := by
  rw [decodeFrom, h]

/-- **A failure to decode is told at a node that fails alone.** The path that is told is the display
of a path that leads from the value to the node, and reading this node as what stands there fails at
the node with the same message.  A value that was reached through a reference fails with this
message too, at the same path behind the reference. -/
theorem failure_at_node {value : Json} (hvalue : value.Distinct) {failure : Failure}
    (hfailure : decodeFrom "" place.decoder value = .error failure) :
    ∃ path cause node inner alone,
      failure.message = malformedAt (renderPath path) (Cause.message cause)
      ∧ value.node? (path.map Step.inJson) = some node ∧ place.at? path = some inner
      ∧ decodeFrom "" inner.decoder node = .error alone
      ∧ alone.message = malformedAt "." cause.message
      ∧ ∀ origin, origin ≠ "" → ∃ other, decodeFrom origin place.decoder value = .error other
        ∧ other.message = malformedAt
          (if renderPath path = "." then origin else origin ++ " → " ++ renderPath path)
          cause.message := by
  cases hfault : place.decoder value with
  | ok result =>
      rw [decodeFrom_eq_ok.mpr hfault] at hfailure
      cases hfailure
  | error fault =>
      rw [decodeFrom_eq_error "" hfault] at hfailure
      cases hfailure
      obtain ⟨node, inner, hnode, hinner, hcause⟩ := exists_node_of_eq_error hvalue hfault
      have hbare (fault : Fault) : fault.place "" = renderPath fault.path := by simp [Fault.place]
      refine ⟨fault.path, fault.cause, node, inner, _, ?_, hnode, hinner,
        decodeFrom_eq_error "" hcause, ?_, fun origin horigin => ?_⟩
      · rw [message_malformed, hbare]
      · rw [message_malformed, hbare]
        rfl
      · refine ⟨_, decodeFrom_eq_error origin hfault, ?_⟩
        rw [message_malformed, Fault.place, if_neg horigin]

/-- A document is what is read as a description. -/
theorem ofJson_eq_error {tree : Json} {failure : Failure} :
    Document.ofJson tree = .error failure
      ↔ decodeFrom "" description.decoder tree = .error failure := by
  show _ ↔ decodeFrom "" OpenApi.description.decode tree = _
  rw [Document.ofJson]
  cases decodeFrom "" OpenApi.description.decode tree with
  | ok result => simp
  | error found =>
      constructor
      · intro h
        cases h
        rfl
      · intro h
        cases h
        rfl

/-- A parameter that travels nowhere. -/
def misplaced : Json :=
  .object [("paths", .object [("/x", .object [("get", .object [("parameters", .array [
    .object [("name", .string "id"), ("in", .string "body")]])])])])]

theorem failure_at_node_misplaced :
    ∃ failure, (misplaced.Distinct ∧ Document.ofJson misplaced = .error failure)
      ∧ failure.message = malformedAt "paths./x.get.parameters[0]"
        "data did not match any variant of untagged enum ReferenceOr"
      ∧ ∃ path cause node inner alone,
        failure.message = malformedAt (renderPath path) (Cause.message cause)
        ∧ misplaced.node? (path.map Step.inJson) = some node ∧ description.at? path = some inner
        ∧ decodeFrom "" inner.decoder node = .error alone
        ∧ alone.message = malformedAt "." cause.message
        ∧ ∀ origin, origin ≠ "" → ∃ other,
          decodeFrom origin description.decoder misplaced = .error other
          ∧ other.message = malformedAt
            (if renderPath path = "." then origin else origin ++ " → " ++ renderPath path)
            cause.message := by
  have hdistinct : misplaced.Distinct := by
    simp [misplaced, Json.distinct_object, Json.distinct_array, Json.Distinct]
  have hfailure : Document.ofJson misplaced = .error (.malformed ""
      ⟨[.key "paths", .key "/x", .key "get", .key "parameters", .index 0],
        .noVariant "ReferenceOr"⟩) := by
    rfl
  exact ⟨_, ⟨hdistinct, hfailure⟩, by decide +kernel,
    failure_at_node hdistinct (ofJson_eq_error.mp hfailure)⟩

end Place
end OpenApi
end ApiTypings
