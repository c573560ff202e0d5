/-
What decoders make of values that correspond to each other.

A part of a value may be replaced by another one that is read alike.  Then the whole is read
alike, because a decoder goes through a value step by step and looks at each part by itself.
`Respects` says this of one decoder: what it reads before the replacement it also reads after
it, and the two results are related.  Each combinator passes on what the decoders inside
respect, and a record respects what each of its fields respects, whether it is written as an
object or as an array.
-/
import Mathlib
import ApiTypings.Proofs.Decoding

namespace ApiTypings

namespace Json

variable {V : Json → Json → Prop}

/-- Arrays with related items. -/
inductive OnItems (V : Json → Json → Prop) : Json → Json → Prop
  | intro {before after : List Json} (h : List.Forall₂ V before after) :
      OnItems V (.array before) (.array after)

/-- Objects with the same keys, in the same order, and related values. -/
inductive OnValues (V : Json → Json → Prop) : Json → Json → Prop
  | intro {before after : List (String × Json)}
      (h : List.Forall₂ (fun b a => b.1 = a.1 ∧ V b.2 a.2) before after) :
      OnValues V (.object before) (.object after)

end Json

namespace Decoder

variable {α β σ : Type} {V : Json → Json → Prop} {R : α → α → Prop}

/-- What is read of a value is also read, with a related result, of a related value. -/
def Respects (decoder : Decoder α) (V : Json → Json → Prop) (R : α → α → Prop) : Prop :=
  ∀ before after, V before after → ∀ first, decoder before = .ok first →
    ∃ second, decoder after = .ok second ∧ R first second

theorem respects_of_eq (decoder : Decoder α) (hV : ∀ before after, V before after → before = after)
    (hR : ∀ result, R result result) : Respects decoder V R := by
  intro before after h first hfirst
  obtain rfl := hV before after h
  exact ⟨first, hfirst, hR first⟩

theorem respects_items {decoder : Decoder α} (h : Respects decoder V R)
    {before after : List Json} (hvalues : List.Forall₂ V before after) {index : Nat}
    {first : List α} (hfirst : items decoder index before = .ok first) :
    ∃ second, items decoder index after = .ok second ∧ List.Forall₂ R first second := by
  induction hvalues generalizing index first with
  | nil =>
      cases hfirst
      exact ⟨[], rfl, .nil⟩
  | cons hvalue _ ih =>
      obtain ⟨item, hitem, hfirst⟩ := bind_eq_ok.mp hfirst
      obtain ⟨rest, hrest, hpure⟩ := bind_eq_ok.mp hfirst
      cases hpure
      obtain ⟨item', hitem', hR⟩ := h _ _ hvalue item (within_eq_ok.mp hitem)
      obtain ⟨rest', hrest', hRrest⟩ := ih hrest
      refine ⟨item' :: rest', ?_, .cons hR hRrest⟩
      exact bind_eq_ok.mpr ⟨item', within_eq_ok.mpr hitem', bind_eq_ok.mpr ⟨rest', hrest', rfl⟩⟩

theorem respects_list {decoder : Decoder α} (h : Respects decoder V R) :
    Respects (list decoder) (Json.OnItems V) (List.Forall₂ R) := by
  rintro _ _ ⟨hvalues⟩ first hfirst
  exact respects_items h hvalues hfirst

theorem respects_entriesOf {decoder : Decoder α} (h : Respects decoder V R)
    {before after : List (String × Json)}
    (hvalues : List.Forall₂ (fun b a => b.1 = a.1 ∧ V b.2 a.2) before after)
    {first : List (String × α)} (hfirst : entriesOf decoder before = .ok first) :
    ∃ second, entriesOf decoder after = .ok second
      ∧ List.Forall₂ (fun f s => f.1 = s.1 ∧ R f.2 s.2) first second := by
  induction hvalues generalizing first with
  | nil =>
      cases hfirst
      exact ⟨[], rfl, .nil⟩
  | @cons b a _ _ hvalue _ ih =>
      obtain ⟨key, value⟩ := b
      obtain ⟨key', value'⟩ := a
      obtain ⟨rfl, hvalue⟩ := hvalue
      obtain ⟨item, hitem, hfirst⟩ := bind_eq_ok.mp hfirst
      obtain ⟨rest, hrest, hpure⟩ := bind_eq_ok.mp hfirst
      cases hpure
      obtain ⟨item', hitem', hR⟩ := h _ _ hvalue item (within_eq_ok.mp hitem)
      obtain ⟨rest', hrest', hRrest⟩ := ih hrest
      refine ⟨(key, item') :: rest', ?_, .cons ⟨rfl, hR⟩ hRrest⟩
      exact bind_eq_ok.mpr ⟨item', within_eq_ok.mpr hitem', bind_eq_ok.mpr ⟨rest', hrest', rfl⟩⟩

theorem respects_entries {decoder : Decoder α} (h : Respects decoder V R) :
    Respects (entries decoder) (Json.OnValues V)
      (List.Forall₂ fun first second => first.1 = second.1 ∧ R first.2 second.2) := by
  rintro _ _ ⟨hvalues⟩ first hfirst
  exact respects_entriesOf h hvalues hfirst

theorem optional_of_ne_null {decoder : Decoder α} {value : Json} (h : value ≠ .null) :
    optional decoder value
      = match decoder value with
        | .ok result => .ok (some result)
        | .error fault => .error fault := by
  cases value <;> first | rfl | exact absurd rfl h

/-- Nulls are related to nulls only. -/
theorem respects_optional {decoder : Decoder α} (h : Respects decoder V R)
    (hnull : ∀ before after, V before after → (before = .null ↔ after = .null)) :
    Respects (optional decoder) V (Option.Rel R) := by
  intro before after hvalue first hfirst
  by_cases hbefore : before = .null
  · have hafter := (hnull before after hvalue).mp hbefore
    subst hbefore hafter
    cases hfirst
    exact ⟨none, rfl, .none⟩
  · have hafter := mt (hnull before after hvalue).mpr hbefore
    rw [optional_of_ne_null hbefore] at hfirst
    split at hfirst
    · rename_i item hitem
      cases hfirst
      obtain ⟨item', hitem', hR⟩ := h before after hvalue item hitem
      refine ⟨some item', ?_, .some hR⟩
      rw [optional_of_ne_null hafter, hitem']
    · cases hfirst

/-! ### Records -/

variable {W : String → Json → Json → Prop} {Q : σ → σ → Prop}

/-- Storing what a field reads keeps records related, when the field reads related values. -/
def Field.Respects (field : Field σ) (W : String → Json → Json → Prop) (Q : σ → σ → Prop) : Prop :=
  ∀ before after, W field.name before after → ∀ first, field.read before = .ok first →
    ∃ second, field.read after = .ok second
      ∧ ∀ record record', Q record record' → Q (first record) (second record')

theorem respects_field {name : String} {presence : Presence} {decoder : Decoder α}
    {store : α → σ → σ} (h : Decoder.Respects decoder (W name) R)
    (hstore : ∀ item item' record record', R item item' → Q record record' →
      Q (store item record) (store item' record')) :
    (field name presence decoder store).Respects W Q := by
  intro before after hvalue first hfirst
  obtain ⟨item, hitem, rfl⟩ := field_read_eq_ok.mp hfirst
  obtain ⟨item', hitem', hR⟩ := h before after hvalue item hitem
  exact ⟨_, field_read_eq_ok.mpr ⟨item', hitem', rfl⟩,
    fun record record' hQ => hstore item item' record record' hR hQ⟩

/-- Two ways to write a record with related values for each field: objects with the same keys, or
arrays of the same length. -/
inductive Record.OnFields (record : Record σ) (W : String → Json → Json → Prop) : Json → Json → Prop
  | object {before after : List (String × Json)}
      (h : List.Forall₂ (fun b a => b.1 = a.1 ∧ W b.1 b.2 a.2) before after) :
      record.OnFields W (.object before) (.object after)
  | array {before after : List Json} (hlength : before.length = after.length)
      (h : ∀ (i : Nat) (field : Field σ) b a, record.fields[i]? = some field → before[i]? = some b →
        after[i]? = some a → W field.name b a) :
      record.OnFields W (.array before) (.array after)

variable {record : Record σ}

theorem respects_readEntries (h : ∀ field ∈ record.fields, field.Respects W Q)
    {before after : List (String × Json)}
    (hvalues : List.Forall₂ (fun b a => b.1 = a.1 ∧ W b.1 b.2 a.2) before after)
    {start start' : σ} (hstart : Q start start') {first : σ}
    (hfirst : record.readEntries before start = .ok first) :
    ∃ second, record.readEntries after start' = .ok second ∧ Q first second := by
  induction hvalues generalizing start start' with
  | nil =>
      cases hfirst
      exact ⟨start', rfl, hstart⟩
  | @cons b a _ _ hvalue _ ih =>
      obtain ⟨key, value⟩ := b
      obtain ⟨key', value'⟩ := a
      obtain ⟨rfl, hvalue⟩ := hvalue
      rw [Record.readEntries] at hfirst ⊢
      dsimp only at hfirst ⊢
      split at hfirst
      · exact ih hstart hfirst
      · rename_i field hfield
        have hname := List.find?_some hfield
        rw [beq_iff_eq] at hname
        obtain ⟨store, hstore, hfirst⟩ := bind_eq_ok.mp hfirst
        obtain ⟨store', hstore', hQ⟩ := h field (List.mem_of_find?_eq_some hfield) value value'
          (hname ▸ hvalue) store (within_eq_ok.mp hstore)
        obtain ⟨second, hsecond, hresult⟩ := ih (hQ start start' hstart) hfirst
        exact ⟨second, bind_eq_ok.mpr ⟨store', within_eq_ok.mpr hstore', hsecond⟩, hresult⟩

theorem keys_eq {before after : List (String × Json)}
    (h : List.Forall₂ (fun b a => b.1 = a.1 ∧ W b.1 b.2 a.2) before after) :
    before.map Prod.fst = after.map Prod.fst := by
  rw [← List.forall₂_eq_eq_eq, List.forall₂_map_left_iff, List.forall₂_map_right_iff]
  exact h.imp fun _ _ hentry => hentry.1

/-- Whether a field is missing depends on the keys alone. -/
theorem missing?_congr {before after : List (String × Json)}
    (h : before.map Prod.fst = after.map Prod.fst) :
    record.missing? before = record.missing? after := by
  have hany : ∀ (name : String) (entries : List (String × Json)),
      (entries.any fun entry => entry.1 == name) = (entries.map Prod.fst).any (· == name) := by
    intro name entries
    rw [List.any_map]
    rfl
  simp only [Record.missing?, hany, h]

theorem respects_readItems {fields : List (Field σ)} (h : ∀ field ∈ fields, field.Respects W Q)
    {before after : List Json} (hlength : before.length = after.length)
    (hvalues : ∀ (i : Nat) (field : Field σ) b a, fields[i]? = some field → before[i]? = some b →
      after[i]? = some a → W field.name b a) {length index : Nat} {start start' : σ}
    (hstart : Q start start') {first : σ}
    (hfirst : record.readItems length index fields before start = .ok first) :
    ∃ second, record.readItems length index fields after start' = .ok second ∧ Q first second := by
  induction fields generalizing before after index start start' with
  | nil =>
      match before, after, hlength with
      | [], [], _ =>
          cases hfirst
          exact ⟨start', rfl, hstart⟩
      | _ :: _, _ :: _, _ => cases hfirst
  | cons field fields ih =>
      have hrest := fun f hf => h f (List.mem_cons_of_mem _ hf)
      match before, after, hlength with
      | [], [], _ =>
          rw [Record.readItems] at hfirst ⊢
          split at hfirst
          · rename_i hdefaulted
            rw [if_pos hdefaulted]
            exact ih hrest rfl (by simp) hstart hfirst
          · cases hfirst
      | b :: before, a :: after, hlength =>
          obtain ⟨store, hstore, hfirst⟩ := bind_eq_ok.mp hfirst
          obtain ⟨store', hstore', hQ⟩ := h field List.mem_cons_self b a
            (hvalues 0 field b a rfl rfl rfl) store (within_eq_ok.mp hstore)
          obtain ⟨second, hsecond, hresult⟩ := ih hrest (Nat.succ.inj hlength)
            (fun i f b a hf hb ha => hvalues (i + 1) f b a hf hb ha) (hQ start start' hstart) hfirst
          exact ⟨second, bind_eq_ok.mpr ⟨store', within_eq_ok.mpr hstore', hsecond⟩, hresult⟩

/-- **A record respects what each of its fields respects.** -/
theorem respects_decode (hempty : Q record.empty record.empty)
    (h : ∀ field ∈ record.fields, field.Respects W Q) :
    Decoder.Respects record.decode (record.OnFields W) Q := by
  intro before after hvalue first hfirst
  cases hvalue with
  | object hvalues =>
      obtain ⟨read, hread, hfirst⟩ := bind_eq_ok.mp hfirst
      obtain ⟨read', hread', hQ⟩ := respects_readEntries h hvalues hempty hread
      split at hfirst
      · cases hfirst
      · rename_i hmissing
        cases hfirst
        refine ⟨read', bind_eq_ok.mpr ⟨read', hread', ?_⟩, hQ⟩
        rw [← missing?_congr (keys_eq hvalues), hmissing]
  | array hlength hvalues =>
      obtain ⟨second, hsecond, hQ⟩ := respects_readItems h hlength hvalues hempty hfirst
      refine ⟨second, ?_, hQ⟩
      rw [Record.decode, ← hlength]
      exact hsecond

end Decoder
end ApiTypings
