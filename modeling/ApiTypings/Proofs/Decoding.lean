/-
What decoders establish.

The keys of an object are distinct, and decoding keeps that: entries come out under distinct
keys, and whatever is read below a value is read from a value that is again distinct all the
way down.  `Ensures` says that every result of a decoder has a property, for values of that
kind.  Each combinator passes on what the decoders inside ensure, and a record ensures what
its empty record has and each of its fields keeps, in whatever order the fields come.
-/
import Mathlib
import ApiTypings.OpenApi.Decoder

namespace ApiTypings

namespace Json

/-! ### Lists of fields -/

theorem mem_of_lookup {α : Type} {key : String} {fields : List (String × α)} {value : α}
    (h : lookup key fields = some value) : (key, value) ∈ fields := by
  induction fields with
  | nil => cases h
  | cons field fields ih =>
      obtain ⟨k, v⟩ := field
      unfold lookup at h
      split at h
      · rename_i hk
        cases h
        simp [hk]
      · exact List.mem_cons_of_mem _ (ih h)

/-- Under distinct keys a field is found by its key. -/
theorem lookup_of_mem {α : Type} {key : String} {fields : List (String × α)} {value : α}
    (hkeys : (fields.map Prod.fst).Nodup) (h : (key, value) ∈ fields) :
    lookup key fields = some value := by
  induction fields with
  | nil => cases h
  | cons field fields ih =>
      obtain ⟨k, v⟩ := field
      obtain ⟨hfresh, hrest⟩ := List.nodup_cons.mp hkeys
      unfold lookup
      rcases List.mem_cons.mp h with heq | h
      · cases heq
        exact if_pos rfl
      · have hne : k ≠ key := by
          rintro rfl
          exact hfresh (List.mem_map.mpr ⟨_, h, rfl⟩)
        rw [if_neg hne]
        exact ih hrest h

theorem keys_insertField {α : Type} (key : String) (value : α) (fields : List (String × α)) :
    (insertField key value fields).map Prod.fst
      = if key ∈ fields.map Prod.fst then fields.map Prod.fst
        else fields.map Prod.fst ++ [key] := by
  induction fields with
  | nil => rfl
  | cons field fields ih =>
      obtain ⟨k, v⟩ := field
      rw [insertField]
      by_cases hk : k = key
      · simp [hk]
      · rw [if_neg hk, List.map_cons, ih]
        have hk' : ¬key = k := fun h => hk h.symm
        by_cases hmem : key ∈ fields.map Prod.fst <;> simp [hmem, hk']

theorem nodup_keys_insertField {α : Type} {key : String} {value : α} {fields : List (String × α)}
    (h : (fields.map Prod.fst).Nodup) : ((insertField key value fields).map Prod.fst).Nodup := by
  rw [keys_insertField]
  split
  · exact h
  · rename_i hnew
    exact List.nodup_append.mpr ⟨h, List.nodup_singleton _, fun a ha b hb hab =>
      hnew (List.mem_singleton.mp hb ▸ hab ▸ ha)⟩

theorem mem_insertField {α : Type} {key : String} {value : α} {fields : List (String × α)}
    {entry : String × α} (h : entry ∈ insertField key value fields) :
    entry = (key, value) ∨ entry ∈ fields := by
  induction fields with
  | nil => exact Or.inl (List.mem_singleton.mp h)
  | cons field fields ih =>
      obtain ⟨k, v⟩ := field
      rw [insertField] at h
      split at h
      · rename_i hk
        rcases List.mem_cons.mp h with rfl | h
        · exact Or.inl (by rw [hk])
        · exact Or.inr (List.mem_cons_of_mem _ h)
      · rcases List.mem_cons.mp h with rfl | h
        · exact Or.inr List.mem_cons_self
        · exact (ih h).imp_right (List.mem_cons_of_mem _)

theorem lookup_insertField_self {α : Type} (key : String) (value : α) (fields : List (String × α)) :
    lookup key (insertField key value fields) = some value := by
  induction fields with
  | nil => exact if_pos rfl
  | cons field fields ih =>
      obtain ⟨name, other⟩ := field
      rw [insertField]
      by_cases hname : name = key
      · rw [if_pos hname, lookup, if_pos hname]
      · rw [if_neg hname, lookup, if_neg hname, ih]

theorem lookup_insertField_other {α : Type} {key other : String} (h : other ≠ key) (value : α)
    (fields : List (String × α)) :
    lookup other (insertField key value fields) = lookup other fields := by
  induction fields with
  | nil => exact if_neg (Ne.symm h)
  | cons field fields ih =>
      obtain ⟨name, found⟩ := field
      rw [insertField]
      by_cases hname : name = key
      · have hother : name ≠ other := by
          rw [hname]
          exact Ne.symm h
        rw [if_pos hname, lookup, lookup, if_neg hother, if_neg hother]
      · rw [if_neg hname, lookup, lookup, ih]

/-! ### Distinct keys -/

/-- The keys of each object in a value are distinct. -/
def Distinct : Json → Prop
  | .object fields => (fields.map Prod.fst).Nodup ∧ ∀ field ∈ fields, field.2.Distinct
  | .array items => ∀ item ∈ items, item.Distinct
  | _ => True
termination_by value => sizeOf value
decreasing_by
  all_goals have := List.sizeOf_lt_of_mem ‹_ ∈ _›
  · obtain ⟨key, value⟩ := field
    simp only [object.sizeOf_spec, Prod.mk.sizeOf_spec] at this ⊢
    omega
  · simp only [array.sizeOf_spec]
    omega

theorem distinct_object {fields : List (String × Json)} :
    (object fields).Distinct
      ↔ (fields.map Prod.fst).Nodup ∧ ∀ field ∈ fields, field.2.Distinct := by
  rw [Distinct]

theorem distinct_array {items : List Json} :
    (array items).Distinct ↔ ∀ item ∈ items, item.Distinct := by
  rw [Distinct]

/-- A field that is added keeps keys distinct: it replaces what its key had, or its key is new. -/
theorem distinct_insertField {key : String} {value : Json} {fields : List (String × Json)}
    (hvalue : value.Distinct) (h : (object fields).Distinct) :
    (object (insertField key value fields)).Distinct := by
  obtain ⟨hkeys, hvalues⟩ := distinct_object.mp h
  refine distinct_object.mpr ⟨nodup_keys_insertField hkeys, fun field hfield => ?_⟩
  rcases mem_insertField hfield with rfl | hfield
  · exact hvalue
  · exact hvalues field hfield

end Json

/-- A computation that does not fail takes each of its steps. -/
theorem bind_eq_ok {ε α β : Type} {first : Except ε α} {next : α → Except ε β} {result : β} :
    (first >>= next) = .ok result ↔ ∃ value, first = .ok value ∧ next value = .ok result := by
  cases first with
  | error error => exact ⟨nofun, nofun⟩
  | ok value => exact ⟨fun h => ⟨value, rfl, h⟩, fun ⟨_, hvalue, h⟩ => by cases hvalue; exact h⟩

namespace Decoder

variable {α β σ : Type} {P : α → Prop}

/-- Every result for a value with distinct keys has the property. -/
def Ensures (decoder : Decoder α) (P : α → Prop) : Prop :=
  ∀ value, value.Distinct → ∀ result, decoder value = .ok result → P result

theorem ensures_true (decoder : Decoder α) : Ensures decoder fun _ => True :=
  fun _ _ _ _ => trivial

theorem within_eq_ok {step : Step} {result : Except Fault α} {value : α} :
    within step result = .ok value ↔ result = .ok value := by
  cases result <;> simp [within]

theorem ensures_optional {decoder : Decoder α} (h : Ensures decoder P) :
    Ensures (optional decoder) fun result => ∀ item ∈ result, P item := by
  intro value hvalue result hresult item hitem
  unfold optional at hresult
  split at hresult
  · cases hresult
    cases hitem
  · split at hresult
    · rename_i decoded hdecoded
      cases hresult
      cases hitem
      exact h value hvalue item hdecoded
    · cases hresult

theorem ensures_items {decoder : Decoder α} (h : Ensures decoder P) {index : Nat}
    {values : List Json} (hvalues : ∀ value ∈ values, value.Distinct) {results : List α}
    (hresults : items decoder index values = .ok results) : ∀ result ∈ results, P result := by
  induction values generalizing index results with
  | nil =>
      cases hresults
      simp
  | cons value values ih =>
      obtain ⟨first, hfirst, hresults⟩ := bind_eq_ok.mp hresults
      obtain ⟨rest, hrest, hpure⟩ := bind_eq_ok.mp hresults
      cases hpure
      refine List.forall_mem_cons.mpr ⟨?_, ?_⟩
      · exact h value (hvalues value List.mem_cons_self) first (within_eq_ok.mp hfirst)
      · exact ih (fun v hv => hvalues v (List.mem_cons_of_mem _ hv)) hrest

theorem ensures_list {decoder : Decoder α} (h : Ensures decoder P) :
    Ensures (list decoder) fun results => ∀ result ∈ results, P result := by
  intro value hvalue results hresults
  cases value with
  | array values => exact ensures_items h (Json.distinct_array.mp hvalue) hresults
  | _ => cases hresults

theorem ensures_entriesOf {decoder : Decoder α} (h : Ensures decoder P)
    {fields : List (String × Json)} (hfields : ∀ field ∈ fields, field.2.Distinct)
    {results : List (String × α)} (hresults : entriesOf decoder fields = .ok results) :
    results.map Prod.fst = fields.map Prod.fst ∧ ∀ result ∈ results, P result.2 := by
  induction fields generalizing results with
  | nil =>
      cases hresults
      simp
  | cons field fields ih =>
      obtain ⟨key, value⟩ := field
      obtain ⟨first, hfirst, hresults⟩ := bind_eq_ok.mp hresults
      obtain ⟨rest, hrest, hpure⟩ := bind_eq_ok.mp hresults
      cases hpure
      obtain ⟨hkeys, hvalues⟩ := ih (fun f hf => hfields f (List.mem_cons_of_mem _ hf)) hrest
      refine ⟨by simp [hkeys], List.forall_mem_cons.mpr ⟨?_, hvalues⟩⟩
      exact h value (hfields (key, value) List.mem_cons_self) first (within_eq_ok.mp hfirst)

/-- Entries come out under distinct keys. -/
theorem ensures_entries {decoder : Decoder α} (h : Ensures decoder P) :
    Ensures (entries decoder) fun results =>
      (results.map Prod.fst).Nodup ∧ ∀ result ∈ results, P result.2 := by
  intro value hvalue results hresults
  cases value with
  | object fields =>
      obtain ⟨hnodup, hfields⟩ := Json.distinct_object.mp hvalue
      obtain ⟨hkeys, hvalues⟩ := ensures_entriesOf h hfields hresults
      exact ⟨hkeys ▸ hnodup, hvalues⟩
  | _ => cases hresults

theorem ensures_referable {decoder : Decoder α} (h : Ensures decoder P) :
    Ensures (referable decoder) fun result => ∀ item, result = .inline item → P item := by
  intro value hvalue result hresult item hitem
  subst hitem
  unfold referable at hresult
  split at hresult
  · cases hresult
  · split at hresult
    · rename_i decoded hdecoded
      cases hresult
      exact h value hvalue item hdecoded
    · cases hresult

/-- Each entry is decoded in its place. -/
theorem getElem?_entriesOf {decoder : Decoder α} {fields : List (String × Json)}
    {results : List (String × α)} (hresults : entriesOf decoder fields = .ok results) {i : Nat}
    {key : String} {value : Json} (hi : fields[i]? = some (key, value)) :
    ∃ item, results[i]? = some (key, item) ∧ decoder value = .ok item := by
  induction fields generalizing i results with
  | nil => cases hi
  | cons field fields ih =>
      obtain ⟨first, hfirst, hresults⟩ := bind_eq_ok.mp hresults
      obtain ⟨rest, hrest, hpure⟩ := bind_eq_ok.mp hresults
      cases hpure
      cases i with
      | zero =>
          cases hi
          exact ⟨first, rfl, within_eq_ok.mp hfirst⟩
      | succ i => exact ih hrest hi

/-! ### Records -/

/-- Storing what a field reads keeps a property of the record. -/
def Field.Keeps (field : Field σ) (Q : σ → Prop) : Prop :=
  ∀ value, value.Distinct → ∀ store, field.read value = .ok store → ∀ record, Q record →
    Q (store record)

theorem keeps_field {name : String} {presence : Presence} {decoder : Decoder α}
    {store : α → σ → σ} {Q : σ → Prop} (h : Ensures decoder P)
    (hstore : ∀ item record, P item → Q record → Q (store item record)) :
    (field name presence decoder store).Keeps Q := by
  intro value hvalue written hwritten record hrecord
  simp only [field] at hwritten
  split at hwritten
  · rename_i result hresult
    cases hwritten
    exact hstore result record (h value hvalue result hresult) hrecord
  · cases hwritten

variable {record : Record σ} {Q : σ → Prop}

theorem ensures_readEntries (h : ∀ field ∈ record.fields, field.Keeps Q)
    {fields : List (String × Json)} (hfields : ∀ field ∈ fields, field.2.Distinct) {start : σ}
    (hstart : Q start) {result : σ} (hresult : record.readEntries fields start = .ok result) :
    Q result := by
  induction fields generalizing start with
  | nil =>
      cases hresult
      exact hstart
  | cons entry fields ih =>
      obtain ⟨key, item⟩ := entry
      have hrest := fun f hf => hfields f (List.mem_cons_of_mem _ hf)
      rw [Record.readEntries] at hresult
      split at hresult
      · exact ih hrest hstart hresult
      · rename_i field hfield
        obtain ⟨store, hstore, hresult⟩ := bind_eq_ok.mp hresult
        refine ih hrest ?_ hresult
        exact h field (List.mem_of_find?_eq_some hfield) item (hfields _ List.mem_cons_self) store
          (within_eq_ok.mp hstore) start hstart

theorem ensures_readItems {length index : Nat} {fields : List (Field σ)}
    (h : ∀ field ∈ fields, field.Keeps Q) {items : List Json}
    (hitems : ∀ item ∈ items, item.Distinct) {start : σ} (hstart : Q start) {result : σ}
    (hresult : record.readItems length index fields items start = .ok result) : Q result := by
  induction fields generalizing index items start with
  | nil =>
      cases items with
      | nil =>
          cases hresult
          exact hstart
      | cons item items => cases hresult
  | cons field fields ih =>
      have hrest := fun f hf => h f (List.mem_cons_of_mem _ hf)
      cases items with
      | nil =>
          rw [Record.readItems] at hresult
          split at hresult
          · exact ih hrest hitems hstart hresult
          · cases hresult
      | cons item items =>
          obtain ⟨store, hstore, hresult⟩ := bind_eq_ok.mp hresult
          refine ih hrest (fun i hi => hitems i (List.mem_cons_of_mem _ hi)) ?_ hresult
          exact h field List.mem_cons_self item (hitems item List.mem_cons_self) store
            (within_eq_ok.mp hstore) start hstart

/-- **A record ensures what its empty record has and each of its fields keeps.** -/
theorem ensures_decode (hempty : Q record.empty) (h : ∀ field ∈ record.fields, field.Keeps Q) :
    Ensures record.decode Q := by
  intro value hvalue result hresult
  cases value with
  | object fields =>
      obtain ⟨-, hfields⟩ := Json.distinct_object.mp hvalue
      obtain ⟨read, hread, hresult⟩ := bind_eq_ok.mp hresult
      split at hresult
      · cases hresult
      · cases hresult
        exact ensures_readEntries h hfields hempty hread
  | array items => exact ensures_readItems h (Json.distinct_array.mp hvalue) hempty hresult
  | _ => cases hresult

/-! ### One field of a record

The fields of a record write different parts of it.  So whatever stands under the name of a field
is, decoded, what the record ends up with in the part of that field, and the order of the entries
does not matter.
-/

/-- The field `name` of the record is read by `decoder` into a `part` of its own. -/
structure Record.Reads (record : Record σ) (name : String) (decoder : Decoder α)
    (part : σ → α) : Prop where
  found : ∃ presence store,
    record.fields.find? (fun entry => entry.name == name) = some (field name presence decoder store)
      ∧ ∀ item value, part (store item value) = item
  others : ∀ other ∈ record.fields, other.name ≠ name → ∀ item write, other.read item = .ok write →
    ∀ value, part (write value) = part value

theorem field_read_eq_ok {name : String} {presence : Presence} {decoder : Decoder α}
    {store : α → σ → σ} {item : Json} {write : σ → σ} :
    (field name presence decoder store).read item = .ok write
      ↔ ∃ result, decoder item = .ok result ∧ store result = write := by
  simp only [field]
  cases decoder item <;> simp

/-- A field that leaves a part of the record alone, whatever it reads. -/
theorem part_of_read {γ : Type} {name : String} {presence : Presence} {decoder : Decoder α}
    {store : α → σ → σ} {part : σ → γ}
    (h : ∀ item value, part (store item value) = part value) :
    ∀ item write, (field name presence decoder store).read item = .ok write →
      ∀ value, part (write value) = part value := by
  intro item write hwrite value
  obtain ⟨result, -, rfl⟩ := field_read_eq_ok.mp hwrite
  exact h result value

variable {name : String} {decoder : Decoder α} {part : σ → α}

theorem Record.Reads.readEntries_of_not_mem (h : record.Reads name decoder part)
    {entries : List (String × Json)} (hname : name ∉ entries.map Prod.fst) {start result : σ}
    (hresult : record.readEntries entries start = .ok result) : part result = part start := by
  induction entries generalizing start with
  | nil =>
      cases hresult
      rfl
  | cons entry entries ih =>
      obtain ⟨key, item⟩ := entry
      obtain ⟨hkey, hrest⟩ := not_or.mp (mt List.mem_cons.mpr hname)
      rw [Record.readEntries] at hresult
      split at hresult
      · exact ih hrest hresult
      · rename_i other hother
        obtain ⟨write, hwrite, hresult⟩ := bind_eq_ok.mp hresult
        have hne : other.name ≠ name := by
          have := List.find?_some hother
          rw [beq_iff_eq.mp this]
          exact Ne.symm hkey
        rw [ih hrest hresult]
        exact h.others other (List.mem_of_find?_eq_some hother) hne item write
          (within_eq_ok.mp hwrite) start

theorem Record.Reads.readEntries_of_lookup (h : record.Reads name decoder part)
    {entries : List (String × Json)} (hkeys : (entries.map Prod.fst).Nodup) {item : Json}
    (hitem : Json.lookup name entries = some item) {start result : σ}
    (hresult : record.readEntries entries start = .ok result) :
    decoder item = .ok (part result) := by
  induction entries generalizing start with
  | nil => cases hitem
  | cons entry entries ih =>
      obtain ⟨key, value⟩ := entry
      obtain ⟨hfresh, hrest⟩ := List.nodup_cons.mp hkeys
      rw [Json.lookup] at hitem
      rw [Record.readEntries] at hresult
      split at hitem
      · rename_i hkey
        subst hkey
        cases hitem
        obtain ⟨presence, store, hfound, hstore⟩ := h.found
        simp only [hfound] at hresult
        obtain ⟨write, hwrite, hresult⟩ := bind_eq_ok.mp hresult
        obtain ⟨read, hread, rfl⟩ := field_read_eq_ok.mp (within_eq_ok.mp hwrite)
        rw [h.readEntries_of_not_mem hfresh hresult, hstore, hread]
      · split at hresult
        · exact ih hrest hitem hresult
        · obtain ⟨write, -, hresult⟩ := bind_eq_ok.mp hresult
          exact ih hrest hitem hresult

/-- **What stands under the name of a field is what the record has in the part of that field.** -/
theorem Record.Reads.of_lookup (h : record.Reads name decoder part)
    {entries : List (String × Json)} (hkeys : (entries.map Prod.fst).Nodup) {item : Json}
    (hitem : Json.lookup name entries = some item) {result : σ}
    (hresult : record.decode (.object entries) = .ok result) :
    decoder item = .ok (part result) := by
  obtain ⟨read, hread, hresult⟩ := bind_eq_ok.mp hresult
  split at hresult
  · cases hresult
  · cases hresult
    exact h.readEntries_of_lookup hkeys hitem hread

end Decoder
end ApiTypings
