/-
The decoder of schemas reads the schemas inside with itself.

It is built up level by level, with as many levels as the value has, and so it is not the same
decoder that reads a schema and the schemas inside.  But levels beyond the depth of a value are
never reached: a combinator hands on nothing but parts of its value, and a part is less deep than
the whole.  So two decoders that agree on all values up to some depth still agree up to the next
one when a record is read around them, and any number of levels does that is large enough.
-/
import Mathlib
import ApiTypings.OpenApi.Format

namespace ApiTypings

namespace Json

theorem depth_pos (value : Json) : 0 < value.depth := by
  cases value <;> simp [depth]

theorem depth_le_of_mem_items {item : Json} {items : List Json} (h : item ∈ items) :
    item.depth ≤ depthItems items := by
  induction items with
  | nil => cases h
  | cons first rest ih =>
      rw [depthItems]
      rcases List.mem_cons.mp h with rfl | h
      · exact Nat.le_max_left _ _
      · exact (ih h).trans (Nat.le_max_right _ _)

theorem depth_le_of_mem_fields {field : String × Json} {fields : List (String × Json)}
    (h : field ∈ fields) : field.2.depth ≤ depthFields fields := by
  induction fields with
  | nil => cases h
  | cons first rest ih =>
      obtain ⟨key, value⟩ := first
      rw [depthFields]
      rcases List.mem_cons.mp h with rfl | h
      · exact Nat.le_max_left _ _
      · exact (ih h).trans (Nat.le_max_right _ _)

theorem depth_lt_of_mem_items {item : Json} {items : List Json} (h : item ∈ items) :
    item.depth < (array items).depth := Nat.lt_succ_of_le (depth_le_of_mem_items h)

theorem depth_lt_of_mem_fields {field : String × Json} {fields : List (String × Json)}
    (h : field ∈ fields) : field.2.depth < (object fields).depth :=
  Nat.lt_succ_of_le (depth_le_of_mem_fields h)

end Json

namespace Decoder

variable {α σ : Type} {depth : Nat} {first second : Decoder α}

/-- The two decoders read the same of each value that is no deeper than `depth`. -/
def AgreeWithin (depth : Nat) (first second : Decoder α) : Prop :=
  ∀ value, value.depth ≤ depth → first value = second value

theorem AgreeWithin.optional (h : AgreeWithin depth first second) :
    AgreeWithin depth (optional first) (optional second) := by
  intro value hvalue
  cases value with
  | null => rfl
  | _ => simp only [Decoder.optional, h _ hvalue]

theorem AgreeWithin.list (h : AgreeWithin depth first second) :
    AgreeWithin depth (list first) (list second) := by
  intro value hvalue
  cases value with
  | array values =>
      have hitems : ∀ (index : Nat) (rest : List Json), (∀ item ∈ rest, item ∈ values) →
          items first index rest = items second index rest := by
        intro index rest hrest
        induction rest generalizing index with
        | nil => rfl
        | cons item rest ih =>
            have hitem := Json.depth_lt_of_mem_items (hrest item List.mem_cons_self)
            rw [items, items, h item (hitem.le.trans hvalue),
              ih (index + 1) fun i hi => hrest i (List.mem_cons_of_mem _ hi)]
      exact hitems 0 values fun _ hitem => hitem
  | _ => rfl

theorem AgreeWithin.entries (h : AgreeWithin depth first second) :
    AgreeWithin depth (entries first) (entries second) := by
  intro value hvalue
  cases value with
  | object fields =>
      have hentries : ∀ rest : List (String × Json), (∀ entry ∈ rest, entry ∈ fields) →
          entriesOf first rest = entriesOf second rest := by
        intro rest hrest
        induction rest with
        | nil => rfl
        | cons entry rest ih =>
            obtain ⟨key, item⟩ := entry
            have hitem := Json.depth_lt_of_mem_fields (hrest (key, item) List.mem_cons_self)
            rw [entriesOf, entriesOf, h item (hitem.le.trans hvalue),
              ih fun e he => hrest e (List.mem_cons_of_mem _ he)]
      exact hentries fields fun _ hentry => hentry
  | _ => rfl

theorem AgreeWithin.referable (h : AgreeWithin depth first second) :
    AgreeWithin depth (referable first) (referable second) := by
  intro value hvalue
  simp only [Decoder.referable, h value hvalue]

/-! ### Records -/

/-- The two fields have the same name and read the same of values up to a depth. -/
structure Field.AgreeWithin (depth : Nat) (first second : Field σ) : Prop where
  name : first.name = second.name
  presence : first.presence = second.presence
  read : ∀ value, value.depth ≤ depth → first.read value = second.read value

theorem Field.AgreeWithin.refl (depth : Nat) (field : Field σ) : field.AgreeWithin depth field :=
  ⟨rfl, rfl, fun _ _ => rfl⟩

theorem agreeWithin_field {name : String} {presence : Presence} {store : α → σ → σ}
    (h : Decoder.AgreeWithin depth first second) :
    (field name presence first store).AgreeWithin depth (field name presence second store) := by
  refine ⟨rfl, rfl, fun value hvalue => ?_⟩
  simp only [field, h value hvalue]

variable {all others : List (Field σ)}

theorem find?_agreeWithin (h : List.Forall₂ (Field.AgreeWithin depth) all others) (key : String) :
    Option.Rel (Field.AgreeWithin depth) (all.find? fun field => field.name == key)
      (others.find? fun field => field.name == key) := by
  induction h with
  | nil => exact .none
  | cons hfield _ ih =>
      rw [List.find?_cons, List.find?_cons, hfield.name]
      split
      · exact .some hfield
      · exact ih

theorem missing?_agreeWithin {record other : Record σ}
    (h : List.Forall₂ (Field.AgreeWithin depth) record.fields other.fields)
    (entries : List (String × Json)) : record.missing? entries = other.missing? entries := by
  unfold Record.missing?
  generalize record.fields = all, other.fields = others at h
  induction h with
  | nil => rfl
  | cons hfield _ ih =>
      rw [List.find?_cons, List.find?_cons, hfield.name, hfield.presence]
      split
      · exact congrArg some hfield.name
      · exact ih

theorem readEntries_agreeWithin {record other : Record σ}
    (h : List.Forall₂ (Field.AgreeWithin depth) record.fields other.fields)
    {entries : List (String × Json)} (hentries : ∀ entry ∈ entries, entry.2.depth ≤ depth)
    (start : σ) : record.readEntries entries start = other.readEntries entries start := by
  induction entries generalizing start with
  | nil => rfl
  | cons entry entries ih =>
      obtain ⟨key, item⟩ := entry
      have hrest := ih fun e he => hentries e (List.mem_cons_of_mem _ he)
      rw [Record.readEntries, Record.readEntries]
      have hfound := find?_agreeWithin h key
      generalize record.fields.find? (fun field => field.name == key) = found,
        other.fields.find? (fun field => field.name == key) = found' at hfound
      cases hfound with
      | none => exact hrest start
      | some hfield => simp only [hfield.read item (hentries _ List.mem_cons_self), hrest]

theorem readItems_agreeWithin {record other : Record σ} (harity : record.arity = other.arity)
    (h : List.Forall₂ (Field.AgreeWithin depth) all others) {items : List Json}
    (hitems : ∀ item ∈ items, item.depth ≤ depth) (length index : Nat) (start : σ) :
    record.readItems length index all items start
      = other.readItems length index others items start := by
  induction h generalizing items index start with
  | nil => cases items <;> rfl
  | cons hfield _ ih =>
      cases items with
      | nil =>
          rw [Record.readItems, Record.readItems, hfield.presence, harity, ih hitems]
      | cons item items =>
          have hrest := fun index => ih (fun i hi => hitems i (List.mem_cons_of_mem _ hi)) index
          simp only [Record.readItems, hfield.read item (hitems _ List.mem_cons_self), hrest]

/-- **Records around decoders that agree up to a depth agree up to the next one.** -/
theorem agreeWithin_decode {record other : Record σ} (hname : record.name = other.name)
    (hempty : record.empty = other.empty)
    (h : List.Forall₂ (Field.AgreeWithin depth) record.fields other.fields) :
    Decoder.AgreeWithin (depth + 1) record.decode other.decode := by
  have htitle : record.title = other.title := by rw [Record.title, hname, Record.title]
  have harity : record.arity = other.arity := by
    rw [Record.arity, Record.arity, htitle, h.length_eq]
  intro value hvalue
  cases value with
  | object entries =>
      have hentries : ∀ entry ∈ entries, entry.2.depth ≤ depth := fun entry hentry =>
        Nat.lt_succ_iff.mp ((Json.depth_lt_of_mem_fields hentry).trans_le hvalue)
      simp only [Record.decode, readEntries_agreeWithin h hentries, hempty,
        missing?_agreeWithin h entries]
  | array items =>
      have hitems : ∀ item ∈ items, item.depth ≤ depth := fun item hitem =>
        Nat.lt_succ_iff.mp ((Json.depth_lt_of_mem_items hitem).trans_le hvalue)
      simp only [Record.decode, readItems_agreeWithin harity h hitems, hempty]
  | _ => simp only [Record.decode, htitle]

end Decoder

namespace OpenApi

open Decoder

variable {depth : Nat} {first second : Decoder Schema}

theorem agreeWithin_additionalProperties (h : AgreeWithin depth first second) :
    AgreeWithin depth (additionalProperties first) (additionalProperties second) := by
  intro value hvalue
  cases value with
  | boolean allowed => rfl
  | _ => simp only [additionalProperties, h _ hvalue]

theorem agreeWithin_schemaObject (h : AgreeWithin depth first second) :
    AgreeWithin (depth + 1) (schemaObject first).decode (schemaObject second).decode := by
  have hadditional := agreeWithin_additionalProperties h
  refine agreeWithin_decode rfl rfl ?_
  simp only [schemaObject, List.forall₂_cons, List.Forall₂.nil, and_true]
  and_intros
  all_goals first
    | exact .refl depth _
    | exact agreeWithin_field h.optional
    | exact agreeWithin_field hadditional.optional
    | exact agreeWithin_field h.list.optional
    | exact agreeWithin_field h.entries.optional

/-- Any number of levels does that is not less than the depth of the value. -/
theorem agreeWithin_schemaWithin {levels more : Nat} (h : levels ≤ more) :
    AgreeWithin levels (schemaWithin levels) (schemaWithin more) := by
  induction levels generalizing more with
  | zero => exact fun value hvalue => absurd value.depth_pos (by omega)
  | succ levels ih =>
      obtain ⟨more, rfl⟩ := Nat.exists_eq_add_of_lt h
      exact (agreeWithin_schemaObject (ih (Nat.le_add_right _ _))).referable

/-- **A schema is a reference or a schema object, in which schemas are read in the same way.** -/
theorem schema_eq : schema = referable (schemaObject schema).decode := by
  funext value
  obtain ⟨levels, hlevels⟩ := Nat.exists_eq_succ_of_ne_zero value.depth_pos.ne'
  have hinside : AgreeWithin levels (schemaWithin levels) schema := fun inner hinner =>
    (agreeWithin_schemaWithin hinner inner le_rfl).symm
  have hschema : schema value = schemaWithin (levels + 1) value := by rw [schema, hlevels]
  rw [hschema]
  exact (agreeWithin_schemaObject hinside).referable value hlevels.le

end OpenApi
end ApiTypings
