/-
The order of fields and unknown fields do not show in what is read.

`Rearranges` is one such change somewhere in a value: the fields of a record in another order, a
field more or less that the record does not read, or a change of this kind further inside.  Where a
reference may stand, the field that says so is left alone.

A record reads its fields one after the other, each into a part of its own, so that two fields may
change places; and a field that it does not know does nothing.  This is what a change at the top
comes to.  A change inside is passed on by the decoders around it, since none of them looks at more
of a part than what is read of it.  A run of changes then follows step by step.
-/
import Mathlib
import ApiTypings.OpenApi.Document
import ApiTypings.Proofs.Places
import ApiTypings.Proofs.RelatedValues
import ApiTypings.Proofs.SchemaLevels

namespace ApiTypings

namespace Json

/-- Arrays and objects. -/
def HasParts : Json → Prop
  | array _ | object _ => True
  | _ => False

theorem distinct_object_at {front back : List (String × Json)} {key : String} {value : Json} :
    (object (front ++ (key, value) :: back)).Distinct
      ↔ key ∉ (front ++ back).map Prod.fst ∧ value.Distinct
        ∧ (object (front ++ back)).Distinct := by
  have hkeys : ((front ++ (key, value) :: back).map Prod.fst).Nodup
      ↔ key ∉ (front ++ back).map Prod.fst ∧ ((front ++ back).map Prod.fst).Nodup := by
    rw [List.map_append, List.map_cons, List.nodup_middle, List.nodup_cons, ← List.map_append]
  rw [distinct_object, distinct_object, hkeys]
  simp only [List.forall_mem_append, List.forall_mem_cons]
  tauto

theorem distinct_array_at {front back : List Json} {value : Json} :
    (array (front ++ value :: back)).Distinct
      ↔ value.Distinct ∧ (array (front ++ back)).Distinct := by
  simp only [distinct_array, List.forall_mem_append, List.forall_mem_cons]
  tauto

/-- The same value, or the one in its place. -/
inductive Replaced (before after : Json) : Json → Json → Prop
  | same (value : Json) : Replaced before after value value
  | replaced : Replaced before after before after

/-- The same value, or under `key` the one in its place. -/
inductive ReplacedUnder (key : String) (before after : Json) : String → Json → Json → Prop
  | same (name : String) (value : Json) : ReplacedUnder key before after name value value
  | replaced : ReplacedUnder key before after key before after

end Json

namespace Decoder

variable {α σ : Type} {before after : Json} {key : String}

/-- What is read of a value is read of the other one, too. -/
def Carries (decoder : Decoder α) (before after : Json) : Prop :=
  ∀ result, decoder before = .ok result → decoder after = .ok result

theorem Carries.of_respects {decoder : Decoder α} {V : Json → Json → Prop}
    (h : Respects decoder V Eq) (hvalue : V before after) : Carries decoder before after := by
  intro result hresult
  obtain ⟨other, hother, rfl⟩ := h before after hvalue result hresult
  exact hother

theorem Carries.respects {decoder : Decoder α} (h : Carries decoder before after) :
    Respects decoder (Json.Replaced before after) Eq := by
  intro first second hvalue result hresult
  cases hvalue with
  | same => exact ⟨result, hresult, rfl⟩
  | replaced => exact ⟨result, h result hresult, rfl⟩

/-- Two lists that differ in one place are related throughout. -/
theorem forall₂_at {β : Type} {R : β → β → Prop} (hrefl : ∀ item, R item item) {first second : β}
    (h : R first second) (front back : List β) :
    List.Forall₂ R (front ++ first :: back) (front ++ second :: back) :=
  List.rel_append (List.forall₂_same.mpr fun item _ => hrefl item)
    (.cons h (List.forall₂_same.mpr fun item _ => hrefl item))

theorem Carries.list {decoder : Decoder α} (h : Carries decoder before after)
    (front back : List Json) :
    Carries (list decoder) (.array (front ++ before :: back))
      (.array (front ++ after :: back)) := by
  have hrespects := respects_list h.respects
  rw [List.forall₂_eq_eq_eq] at hrespects
  exact .of_respects hrespects ⟨forall₂_at .same .replaced front back⟩

theorem Carries.entries {decoder : Decoder α} (h : Carries decoder before after)
    (front back : List (String × Json)) (key : String) :
    Carries (entries decoder) (.object (front ++ (key, before) :: back))
      (.object (front ++ (key, after) :: back)) := by
  have heq : (fun first second : String × α => first.1 = second.1 ∧ first.2 = second.2) = Eq := by
    funext first second
    exact propext Prod.ext_iff.symm
  have hrespects := respects_entries h.respects
  rw [heq, List.forall₂_eq_eq_eq] at hrespects
  exact .of_respects hrespects
    ⟨forall₂_at (fun entry => ⟨rfl, .same entry.2⟩) ⟨rfl, .replaced⟩ front back⟩

theorem Carries.optional {decoder : Decoder α} (h : Carries decoder before after)
    (hbefore : before.HasParts) (hafter : after.HasParts) :
    Carries (optional decoder) before after := by
  have hnull {value : Json} (hparts : value.HasParts) : value ≠ .null := fun h => by
    rw [h] at hparts
    exact hparts
  intro result hresult
  rw [optional_of_ne_null (hnull hbefore)] at hresult
  rw [optional_of_ne_null (hnull hafter)]
  split at hresult
  · rename_i item hitem
    rw [h item hitem]
    exact hresult
  · cases hresult

theorem Carries.additional {decoder : Decoder OpenApi.Schema} (h : Carries decoder before after)
    (hbefore : before.HasParts) (hafter : after.HasParts) :
    Carries (OpenApi.additionalProperties decoder) before after := by
  have hread {value : Json} (hparts : value.HasParts)
      {result : OpenApi.AdditionalProperties OpenApi.Schema} :
      OpenApi.additionalProperties decoder value = .ok result
        ↔ ∃ schema, decoder value = .ok schema ∧ .schema schema = result := by
    cases value with
    | array _ | object _ =>
        simp only [OpenApi.additionalProperties]
        cases decoder _ <;> simp [fail]
    | _ => exact hparts.elim
  intro result hresult
  obtain ⟨schema, hschema, rfl⟩ := (hread hbefore).mp hresult
  exact (hread hafter).mpr ⟨schema, h schema hschema, rfl⟩

theorem Carries.slot (h : Carries OpenApi.operation.decode before after)
    (hbefore : before.HasParts) (hafter : after.HasParts) :
    Carries OpenApi.slot before after := by
  have hoptional := h.optional hbefore hafter
  intro result hresult
  unfold OpenApi.slot at hresult ⊢
  split at hresult
  · rename_i hread
    rw [hoptional _ hread]
    exact hresult
  · rename_i hread
    rw [hoptional _ hread]
    exact hresult
  · cases hresult

theorem Carries.referable {decoder : Decoder α} (h : Carries decoder before after)
    (href : before.field? "$ref" = after.field? "$ref") :
    Carries (referable decoder) before after := by
  intro result hresult
  rw [Decoder.referable] at hresult ⊢
  rw [← href]
  split at hresult
  · exact hresult
  · split at hresult
    · rename_i item hitem
      rw [h item hitem]
      exact hresult
    · cases hresult

/-! ### Records -/

variable {record : Record σ} {fields : List (String × OpenApi.Place)}

open OpenApi

/-- What a record that is laid out as in the table makes of a change in one field. -/
theorem respects_replacedUnder (h : LaidOut record fields) {inner : Place}
    (hinner : (key, inner) ∈ fields) (hcarries : Carries inner.decoder before after) :
    ∀ field ∈ record.fields, field.Respects (Json.ReplacedUnder key before after) Eq := by
  intro field hfield
  obtain ⟨i, hi⟩ := List.mem_iff_getElem?.mp hfield
  obtain ⟨⟨name, place⟩, hentry, presence, store, rfl⟩ := exists_getElem?_of_getElem? h.reads hi
  refine respects_field (R := Eq) ?_ (fun item item' record record' hitem hrecord => ?_)
  · intro first second hvalue result hresult
    cases hvalue with
    | same => exact ⟨result, hresult, rfl⟩
    | replaced =>
        have hplace := Json.lookup_of_mem h.names (List.mem_of_getElem? hentry)
        obtain rfl : inner = place :=
          Option.some.inj ((Json.lookup_of_mem h.names hinner).symm.trans hplace)
        exact ⟨result, hcarries result hresult, rfl⟩
  · rw [hitem, hrecord]

theorem carries_field (h : LaidOut record fields) {inner : Place} (hinner : (key, inner) ∈ fields)
    (hcarries : Carries inner.decoder before after) (front back : List (String × Json)) :
    Carries record.decode (.object (front ++ (key, before) :: back))
      (.object (front ++ (key, after) :: back)) := by
  refine .of_respects (respects_decode rfl (respects_replacedUnder h hinner hcarries)) ?_
  exact .object (forall₂_at (fun entry => ⟨rfl, .same entry.1 entry.2⟩) ⟨rfl, .replaced⟩ front back)

theorem carries_position (h : LaidOut record fields) {inner : Place} {front : List Json}
    (hinner : fields[front.length]? = some (key, inner))
    (hcarries : Carries inner.decoder before after) (back : List Json) :
    Carries record.decode (.array (front ++ before :: back)) (.array (front ++ after :: back)) := by
  refine .of_respects (respects_decode rfl
    (respects_replacedUnder h (List.mem_of_getElem? hinner) hcarries)) (.array (by simp) ?_)
  intro i field b a hfield hb ha
  obtain ⟨entry, hentry, hreads⟩ := exists_getElem?_of_getElem? h.reads hfield
  rcases Nat.lt_trichotomy i front.length with hi | rfl | hi
  · rw [List.getElem?_append_left hi] at hb ha
    cases hb.symm.trans ha
    exact .same _ _
  · rw [hinner] at hentry
    cases hentry
    rw [List.getElem?_append_right le_rfl, Nat.sub_self] at hb ha
    cases hb
    cases ha
    rw [hreads.name]
    exact .replaced
  · rw [List.getElem?_append_right hi.le, List.getElem?_cons, if_neg (by omega)] at hb ha
    cases hb.symm.trans ha
    exact .same _ _

/-- How an entry of an object changes the record. -/
def Record.write (record : Record σ) (entry : String × Json) : Except Fault (σ → σ) :=
  match record.fields.find? fun field => field.name == entry.1 with
  | none => .ok id
  | some field => within (.key entry.1) (field.read entry.2)

theorem readEntries_cons (entry : String × Json) (rest : List (String × Json)) (start : σ) :
    record.readEntries (entry :: rest) start
      = record.write entry >>= fun store => record.readEntries rest (store start) := by
  rw [Record.readEntries, Record.write]
  cases record.fields.find? fun field => field.name == entry.1 <;> rfl

theorem write_comm (h : record.fields.Pairwise Commutes) {first second : String × Json}
    (hkeys : first.1 ≠ second.1) {f g : σ → σ} (hf : record.write first = .ok f)
    (hg : record.write second = .ok g) (value : σ) : f (g value) = g (f value) := by
  have : Std.Symm (Commutes (σ := σ)) := ⟨fun _ _ hcommutes => hcommutes.symm⟩
  unfold Record.write at hf hg
  split at hf <;> split at hg
  · cases hf
    rfl
  · cases hf
    rfl
  · cases hg
    rfl
  · rename_i field hfield _ other hother
    have hne : field ≠ other := by
      rintro rfl
      have hfirst := List.find?_some hfield
      have hsecond := List.find?_some hother
      exact hkeys ((beq_iff_eq.mp hfirst).symm.trans (beq_iff_eq.mp hsecond))
    exact h.forall (List.mem_of_find?_eq_some hfield) (List.mem_of_find?_eq_some hother) hne
      _ _ f g (within_eq_ok.mp hf) (within_eq_ok.mp hg) value

/-- **Entries may be read in any order.** -/
theorem readEntries_perm (h : record.fields.Pairwise Commutes) {first second : List (String × Json)}
    (hperm : first.Perm second) (hkeys : (first.map Prod.fst).Nodup) {start result : σ}
    (hresult : record.readEntries first start = .ok result) :
    record.readEntries second start = .ok result := by
  induction hperm generalizing start with
  | nil => exact hresult
  | cons entry _ ih =>
      rw [readEntries_cons] at hresult ⊢
      obtain ⟨store, hstore, hresult⟩ := bind_eq_ok.mp hresult
      exact bind_eq_ok.mpr ⟨store, hstore, ih (List.nodup_cons.mp hkeys).2 hresult⟩
  | swap one other rest =>
      have hne : other.1 ≠ one.1 := fun heq =>
        (List.nodup_cons.mp hkeys).1 (heq ▸ List.mem_cons_self)
      simp only [readEntries_cons] at hresult ⊢
      obtain ⟨f, hf, hresult⟩ := bind_eq_ok.mp hresult
      obtain ⟨g, hg, hresult⟩ := bind_eq_ok.mp hresult
      refine bind_eq_ok.mpr ⟨g, hg, bind_eq_ok.mpr ⟨f, hf, ?_⟩⟩
      rw [write_comm h hne hf hg]
      exact hresult
  | trans hfirst _ ih ih' =>
      exact ih' ((hfirst.map Prod.fst).nodup_iff.mp hkeys) (ih hkeys hresult)

theorem missing?_eq_of_any {first second : List (String × Json)}
    (h : ∀ field ∈ record.fields, (first.any fun entry => entry.1 == field.name)
      = second.any fun entry => entry.1 == field.name) :
    record.missing? first = record.missing? second := by
  unfold Record.missing?
  rw [List.find?_congr fun field hfield => by rw [h field hfield]]

theorem carries_perm (h : LaidOut record fields) {first second : List (String × Json)}
    (hperm : first.Perm second) (hkeys : (first.map Prod.fst).Nodup) :
    Carries record.decode (.object first) (.object second) := by
  intro result hresult
  obtain ⟨read, hread, hresult⟩ := bind_eq_ok.mp hresult
  refine bind_eq_ok.mpr ⟨read, readEntries_perm h.commutes hperm hkeys hread, ?_⟩
  rw [← missing?_eq_of_any fun _ _ => hperm.any_eq]
  exact hresult

/-- A field that the record does not know is skipped. -/
theorem decode_unknown (h : LaidOut record fields) (hkey : key ∉ fields.map Prod.fst)
    (front back : List (String × Json)) (value : Json) :
    record.decode (.object (front ++ (key, value) :: back))
      = record.decode (.object (front ++ back)) := by
  have hname : ∀ field ∈ record.fields, field.name ≠ key := by
    rintro field hfield rfl
    obtain ⟨i, hi⟩ := List.mem_iff_getElem?.mp hfield
    obtain ⟨entry, hentry, hreads⟩ := exists_getElem?_of_getElem? h.reads hi
    exact hkey (List.mem_map.mpr ⟨entry, List.mem_of_getElem? hentry, hreads.name.symm⟩)
  have hread (start : σ) : record.readEntries (front ++ (key, value) :: back) start
      = record.readEntries (front ++ back) start := by
    induction front generalizing start with
    | nil =>
        have hwrite : record.write (key, value) = .ok id := by
          rw [Record.write, List.find?_eq_none.mpr fun field hfield => by simp [hname field hfield]]
        rw [List.nil_append, readEntries_cons, hwrite]
        rfl
    | cons entry front ih => simp only [List.cons_append, readEntries_cons, ih]
  have hmissing : record.missing? (front ++ (key, value) :: back)
      = record.missing? (front ++ back) := by
    refine missing?_eq_of_any fun field hfield => ?_
    have hne : (key == field.name) = false := beq_eq_false_iff_ne.mpr (hname field hfield).symm
    simp [hne]
  simp only [Record.decode, hread, hmissing]

end Decoder

namespace OpenApi

open Decoder

/-- One change, somewhere in a value that is read as `place`, of the order of the fields of a record
or of a field that is not read. -/
inductive Rearranges : Place → Json → Json → Prop
  | reordered {place : Place} {fields : List (String × Place)} {before after : List (String × Json)}
      (hfields : place.fields? = some fields) (h : before.Perm after) :
      Rearranges place (.object before) (.object after)
  | added {place : Place} {fields : List (String × Place)} {front back : List (String × Json)}
      {key : String} {value : Json} (hfields : place.fields? = some fields)
      (hunread : key ∉ fields.map Prod.fst) (hnew : key ∉ (front ++ back).map Prod.fst)
      (hvalue : value.Distinct) :
      Rearranges place (.object (front ++ back)) (.object (front ++ (key, value) :: back))
  | removed {place : Place} {fields : List (String × Place)} {front back : List (String × Json)}
      {key : String} {value : Json} (hfields : place.fields? = some fields)
      (hunread : key ∉ fields.map Prod.fst) :
      Rearranges place (.object (front ++ (key, value) :: back)) (.object (front ++ back))
  | field {place inner : Place} {fields : List (String × Place)} {front back : List (String × Json)}
      {key : String} {before after : Json} (hfields : place.fields? = some fields)
      (hinner : (key, inner) ∈ fields) (h : Rearranges inner before after) :
      Rearranges place (.object (front ++ (key, before) :: back))
        (.object (front ++ (key, after) :: back))
  | position {place inner : Place} {fields : List (String × Place)} {front back : List Json}
      {key : String} {before after : Json} (hfields : place.fields? = some fields)
      (hinner : fields[front.length]? = some (key, inner)) (h : Rearranges inner before after) :
      Rearranges place (.array (front ++ before :: back)) (.array (front ++ after :: back))
  | item {place : Place} {front back : List Json} {before after : Json}
      (h : Rearranges place before after) :
      Rearranges (.list place) (.array (front ++ before :: back)) (.array (front ++ after :: back))
  | entry {place : Place} {front back : List (String × Json)} {key : String} {before after : Json}
      (h : Rearranges place before after) :
      Rearranges (.entries place) (.object (front ++ (key, before) :: back))
        (.object (front ++ (key, after) :: back))
  | optional {place : Place} {before after : Json} (h : Rearranges place before after) :
      Rearranges (.optional place) before after
  | slot {before after : Json} (h : Rearranges .operation before after) :
      Rearranges .slot before after
  | schema {before after : Json} (h : Rearranges (.referable .schemaObject) before after) :
      Rearranges .schema before after
  | additional {before after : Json} (h : Rearranges .schema before after) :
      Rearranges .additional before after
  /-- the field that makes a reference is left alone -/
  | referable {place : Place} {before after : Json} (h : Rearranges place before after)
      (href : before.field? "$ref" = after.field? "$ref") :
      Rearranges (.referable place) before after
  /-- nothing is read beside the text that makes a reference -/
  | reference {place : Place} {pointer : String} {before after : Json}
      (hbefore : before.field? "$ref" = some (.string pointer))
      (hafter : after.field? "$ref" = some (.string pointer)) (hdistinct : after.Distinct) :
      Rearranges (.referable place) before after

namespace Rearranges

variable {place : Place} {before after : Json}

theorem hasParts (h : Rearranges place before after) : before.HasParts ∧ after.HasParts := by
  have hobject {value : Json} {pointer : String}
      (href : value.field? "$ref" = some (.string pointer)) : value.HasParts := by
    cases value <;> trivial
  induction h with
  | optional _ ih | slot _ ih | schema _ ih | additional _ ih | referable _ _ ih => exact ih
  | reference hbefore hafter => exact ⟨hobject hbefore, hobject hafter⟩
  | _ => exact ⟨trivial, trivial⟩

/-- The keys of each object are still distinct. -/
theorem distinct (h : Rearranges place before after) (hbefore : before.Distinct) :
    after.Distinct := by
  induction h with
  | reordered _ hperm =>
      obtain ⟨hkeys, hvalues⟩ := Json.distinct_object.mp hbefore
      exact Json.distinct_object.mpr ⟨(hperm.map Prod.fst).nodup_iff.mp hkeys,
        fun field hfield => hvalues field (hperm.mem_iff.mpr hfield)⟩
  | added _ _ hnew hvalue => exact Json.distinct_object_at.mpr ⟨hnew, hvalue, hbefore⟩
  | removed => exact (Json.distinct_object_at.mp hbefore).2.2
  | field _ _ _ ih | entry _ ih =>
      obtain ⟨hkey, hvalue, hrest⟩ := Json.distinct_object_at.mp hbefore
      exact Json.distinct_object_at.mpr ⟨hkey, ih hvalue, hrest⟩
  | position _ _ _ ih | item _ ih =>
      obtain ⟨hvalue, hrest⟩ := Json.distinct_array_at.mp hbefore
      exact Json.distinct_array_at.mpr ⟨ih hvalue, hrest⟩
  | optional _ ih | slot _ ih | schema _ ih | additional _ ih | referable _ _ ih =>
      exact ih hbefore
  | reference _ _ hdistinct => exact hdistinct

/-- A place with known fields carries what every record with these fields carries. -/
theorem carries_of_fields? {fields : List (String × Place)} (hfields : place.fields? = some fields)
    (h : ∀ record : Record place.Value, LaidOut record fields →
      Carries record.decode before after) : Carries place.decoder before after := by
  obtain ⟨record, hdecoder, hrecord⟩ := Place.exists_record hfields
  rw [hdecoder]
  exact h record hrecord

/-- **What is read before a change is read after it.** -/
theorem carries (h : Rearranges place before after) (hbefore : before.Distinct) :
    Carries place.decoder before after := by
  induction h with
  | reordered hfields hperm =>
      exact carries_of_fields? hfields fun record hrecord =>
        carries_perm hrecord hperm (Json.distinct_object.mp hbefore).1
  | added hfields hunread =>
      refine carries_of_fields? hfields fun record hrecord result hresult => ?_
      rw [decode_unknown hrecord hunread]
      exact hresult
  | removed hfields hunread =>
      refine carries_of_fields? hfields fun record hrecord result hresult => ?_
      rw [decode_unknown hrecord hunread] at hresult
      exact hresult
  | field hfields hinner _ ih =>
      have hinside := ih (Json.distinct_object_at.mp hbefore).2.1
      exact carries_of_fields? hfields fun record hrecord =>
        carries_field hrecord hinner hinside _ _
  | position hfields hinner _ ih =>
      have hinside := ih (Json.distinct_array_at.mp hbefore).1
      exact carries_of_fields? hfields fun record hrecord =>
        carries_position hrecord hinner hinside _
  | item _ ih => exact (ih (Json.distinct_array_at.mp hbefore).1).list _ _
  | entry _ ih => exact (ih (Json.distinct_object_at.mp hbefore).2.1).entries _ _ _
  | optional h ih => exact (ih hbefore).optional h.hasParts.1 h.hasParts.2
  | slot h ih => exact (ih hbefore).slot h.hasParts.1 h.hasParts.2
  | schema _ ih =>
      show Carries OpenApi.schema _ _
      rw [schema_eq]
      exact ih hbefore
  | additional h ih => exact (ih hbefore).additional h.hasParts.1 h.hasParts.2
  | referable _ href ih => exact (ih hbefore).referable href
  | @reference place _ first second hfirst hsecond =>
      have href {value : Json} {pointer : String}
          (h : value.field? "$ref" = some (.string pointer)) :
          Decoder.referable place.decoder value = .ok (.reference pointer) := by
        rw [Decoder.referable, h]
        rfl
      intro result hresult
      exact (href hsecond).trans ((href hfirst).symm.trans hresult)

/-- **Any number of such changes leaves what is read as it is.** -/
theorem carries_of_reaches (h : Relation.ReflTransGen (Rearranges place) before after)
    (hbefore : before.Distinct) : Carries place.decoder before after := by
  induction h using Relation.ReflTransGen.head_induction_on with
  | refl => exact fun _ hresult => hresult
  | head hstep _ ih =>
      intro result hresult
      exact ih (hstep.distinct hbefore) result (hstep.carries hbefore result hresult)

end Rearranges

/-- **Documents that differ in the order of their fields and in fields that are not read have the
same typed view.** -/
theorem Document.ofJson_of_rearranged {before after : Json} (hbefore : before.Distinct)
    (h : Relation.ReflTransGen (Rearranges .description) before after) {document : Document}
    (hdocument : Document.ofJson before = .ok document) :
    Document.ofJson after = .ok { document with tree := after } := by
  obtain ⟨-, hdecoded⟩ := Document.ofJson_eq_ok.mp hdocument
  exact Document.ofJson_eq_ok.mpr ⟨rfl, Rearranges.carries_of_reaches h hbefore _ hdecoded⟩

/-- A document with one schema. -/
def codeSchemas : Json :=
  .object [("info", .object [("title", .string "Codes"), ("version", .string "1")]),
    ("components", .object [("schemas", .object [("Code",
      .object [("type", .string "string"), ("nullable", .boolean true)])])])]

/-- The same document, with its version in front, and with more on the schema. -/
def codeSchemasAnnotated : Json :=
  .object [("openapi", .string "3.1.0"),
    ("info", .object [("version", .string "1"), ("title", .string "Codes")]),
    ("components", .object [("schemas", .object [("Code",
      .object [("type", .string "string"), ("nullable", .boolean true),
        ("format", .string "uuid")])])])]

theorem Document.ofJson_of_rearranged_codeSchemas :
    ∃ document, (codeSchemas.Distinct
        ∧ Relation.ReflTransGen (Rearranges .description) codeSchemas codeSchemasAnnotated
        ∧ Document.ofJson codeSchemas = .ok document)
      ∧ Document.ofJson codeSchemasAnnotated
        = .ok { document with tree := codeSchemasAnnotated } := by
  have hdistinct : codeSchemas.Distinct := by
    simp [codeSchemas, Json.distinct_object, Json.Distinct]
  have hsteps : Relation.ReflTransGen (Rearranges .description) codeSchemas
      codeSchemasAnnotated := by
    refine .head (@Rearranges.field _ .info _ [] _ "info" _ _ rfl (by simp)
      (.reordered rfl (.swap _ _ _))) ?_
    refine .head (@Rearranges.added _ _ [] _ "openapi" (.string "3.1.0") rfl (by decide) (by decide)
      (by simp [Json.Distinct])) ?_
    refine .single (@Rearranges.field _ .components _ [_, _] [] "components" _ _ rfl (by simp) ?_)
    refine @Rearranges.field _ (.entries .schema) _ [] [] "schemas" _ _ rfl (by simp) ?_
    refine @Rearranges.entry _ [] [] "Code" _ _ (.schema (.referable ?_ rfl))
    exact @Rearranges.added _ _ [_, _] [] "format" _ rfl (by decide) (by decide)
      (by simp [Json.Distinct])
  obtain ⟨document, hdocument⟩ : ∃ document, Document.ofJson codeSchemas = .ok document := ⟨_, rfl⟩
  exact ⟨document, ⟨hdistinct, hsteps, hdocument⟩,
    Document.ofJson_of_rearranged hdistinct hsteps hdocument⟩

end OpenApi
end ApiTypings
