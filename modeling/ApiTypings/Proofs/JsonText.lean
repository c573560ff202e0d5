/-
The compact text of a JSON value determines the value.

What is shown is more than injectivity: the text of a value, followed by anything that
cannot continue a number, fixes the value and the place where it ends.  Numbers are
the only values whose text does not show its own end.  In this form the statement goes
through an induction on the value, and it can be used where JSON is a part of a longer
text, which is how literals stand in type expressions.

Strings and numbers are settled by reading them back; arrays and objects are lists with
separators.
-/
import Mathlib
import ApiTypings.Json.Reader
import ApiTypings.Proofs.DecimalText
import ApiTypings.Proofs.Separated

namespace ApiTypings.Json

open Decimal (isNumberChar)

/-! ### Values inside values -/

/-- The values directly inside a value. -/
def children : Json → List Json
  | array items => items
  | object fields => fields.map Prod.snd
  | _ => []

theorem sizeOf_lt_of_mem_children {value child : Json} (h : child ∈ value.children) :
    sizeOf child < sizeOf value := by
  cases value with
  | array items =>
      have := List.sizeOf_lt_of_mem (show child ∈ items from h)
      simp only [array.sizeOf_spec]
      omega
  | object fields =>
      obtain ⟨⟨key, value⟩, hmem, rfl⟩ := List.mem_map.mp h
      have := List.sizeOf_lt_of_mem hmem
      simp only [object.sizeOf_spec, Prod.mk.sizeOf_spec] at this ⊢
      omega
  | _ => simp [children] at h

/-- What holds of a value whenever it holds of the values inside holds of all values. -/
theorem induction {P : Json → Prop} (step : ∀ value, (∀ child ∈ value.children, P child) → P value)
    (value : Json) : P value :=
  step value fun child _ => induction step child
termination_by value
decreasing_by exact sizeOf_lt_of_mem_children ‹_›

/-! ### Strings -/

theorem hexUnit?_control : ∀ n < 32,
    hexUnit? '0' '0' (hexDigit (n / 16)) (hexDigit (n % 16)) = some n := by
  decide

/-- One character is read back from its spelling. -/
theorem scanString_escapeChar (read rest : List Char) (c : Char) :
    scanString read (escapeChar c ++ rest) = scanString (c :: read) rest := by
  unfold escapeChar
  split
  · rename_i h
    subst h
    simp [scanString, simpleEscape?]
  split
  · rename_i h
    subst h
    simp [scanString, simpleEscape?]
  split
  · rename_i hquote hslash h32
    rw [List.singleton_append, scanString]
    · exact if_neg (by omega)
    · exact hquote
    · exact fun _ _ _ _ _ h _ => hslash h
    · exact fun _ _ h _ => hslash h
  split
  · rename_i h
    subst h
    simp [scanString, simpleEscape?]
  split
  · rename_i h
    subst h
    simp [scanString, simpleEscape?]
  split
  · rename_i h
    subst h
    simp [scanString, simpleEscape?]
  split
  · rename_i h
    have hc : c = '\x08' := Char.toNat_inj.mp h
    subst hc
    simp [scanString, simpleEscape?]
  split
  · rename_i h
    have hc : c = '\x0c' := Char.toNat_inj.mp h
    subst hc
    simp [scanString, simpleEscape?]
  · have hlt : c.toNat < 32 := by omega
    have hunit := hexUnit?_control c.toNat hlt
    simp only [List.cons_append, List.nil_append]
    rw [scanString, hunit]
    simp [show ¬(0xD800 ≤ c.toNat) by omega, show ¬(0xDC00 ≤ c.toNat) by omega]

theorem scanString_escaped (read rest : List Char) (text : List Char) :
    scanString read (text.flatMap escapeChar ++ '"' :: rest)
      = some (String.ofList (read.reverse ++ text), rest) := by
  induction text generalizing read with
  | nil => simp [scanString]
  | cons c text ih =>
      rw [List.flatMap_cons, List.append_assoc, scanString_escapeChar, ih]
      simp

theorem toList_quote (text : String) :
    (quote text).toList = '"' :: (text.toList.flatMap escapeChar ++ ['"']) := by
  simp [quote]

/-- A string literal is fixed by its text, and shows where it ends. -/
theorem quote_unique {a b : String} {x y : List Char}
    (h : (quote a).toList ++ x = (quote b).toList ++ y) : a = b ∧ x = y := by
  simp only [toList_quote, List.cons_append, List.append_assoc, List.nil_append,
    List.cons.injEq, true_and] at h
  have hread := scanString_escaped [] x a.toList
  rw [h, scanString_escaped] at hread
  simpa [eq_comm] using hread

/-! ### Numbers -/

/-- A text that does not continue a number. -/
def EndsNumber (text : List Char) : Prop := ∀ c ∈ text.head?, isNumberChar c = false

theorem isNumberChar_of_mem_render {n : Number} {c : Char} (h : c ∈ n.render.toList) :
    isNumberChar c = true := by
  cases n with
  | integer value => exact Decimal.isNumberChar_of_mem_int h
  | decimal value => exact Decimal.isNumberChar_of_mem_render h

/-- The text of an integer shows neither a point nor an exponent. -/
theorem isDigit_or_minus_of_mem_int {n : Int} {c : Char} (h : c ∈ (toString n).toList) :
    c.isDigit = true ∨ c = '-' := by
  rw [Decimal.toList_toString_int] at h
  split at h
  · exact Or.inl (Decimal.isDigit_of_mem_toDigits h)
  · rcases List.mem_cons.mp h with rfl | h
    · exact Or.inr rfl
    · exact Or.inl (Decimal.isDigit_of_mem_toDigits h)

/-- No integer is written like a decimal. -/
theorem integer_ne_decimal (n : Int) (d : Decimal) :
    toString n ≠ d.render Number.decimalLayout := by
  intro h
  obtain ⟨c, hc, hdigit, hminus⟩ := Decimal.exists_mark_mem_render Number.decimalLayout d
  rw [← h] at hc
  rcases isDigit_or_minus_of_mem_int hc with h' | h'
  · rw [hdigit] at h'
    cases h'
  · exact hminus h'

theorem number_render_injective {a b : Number} (h : a.render = b.render) : a = b := by
  cases a with
  | integer m =>
      cases b with
      | integer n =>
          rw [Int.repr_injective (show m.repr = n.repr from h)]
      | decimal e => exact absurd h (integer_ne_decimal m e)
  | decimal d =>
      cases b with
      | integer n => exact absurd h.symm (integer_ne_decimal n d)
      | decimal e => rw [Decimal.render_injective h]

/-- A number is fixed by its text, if that ends. -/
theorem number_unique {a b : Number} {x y : List Char} (hx : EndsNumber x) (hy : EndsNumber y)
    (h : a.render.toList ++ x = b.render.toList ++ y) : a = b ∧ x = y := by
  obtain ⟨htext, hxy⟩ := Text.span_unique (fun _ => isNumberChar_of_mem_render)
    (fun _ => isNumberChar_of_mem_render) hx hy h
  exact ⟨number_render_injective (String.toList_inj.mp htext), hxy⟩

/-! ### Lists -/

/-- A field with its key. -/
def fieldText (field : String × Json) : List Char :=
  (quote field.1).toList ++ ':' :: field.2.render.toList

theorem toList_renderItems (item : Json) (items : List Json) :
    (renderItems (item :: items)).toList
      = item.render.toList ++ Text.behind [','] (fun v => v.render.toList) items := by
  induction items generalizing item with
  | nil => simp [renderItems]
  | cons next items ih => simp [renderItems, ih]

theorem toList_renderFields (field : String × Json) (fields : List (String × Json)) :
    (renderFields (field :: fields)).toList
      = fieldText field ++ Text.behind [','] fieldText fields := by
  induction fields generalizing field with
  | nil => simp [renderFields, fieldText]
  | cons next fields ih => simp [renderFields, fieldText, ih]

/-- A text that begins with the end of an array or object. -/
def Closes (close : Char) (text : List Char) : Prop := text.head? = some close

theorem closes_cons (close : Char) (text : List Char) : Closes close (close :: text) := rfl

theorem endsNumber_cons {c : Char} (h : isNumberChar c = false) (text : List Char) :
    EndsNumber (c :: text) := by
  simp [EndsNumber, h]

theorem endsNumber_of_closes {close : Char} (hc : isNumberChar close = false) (text : List Char)
    (h : Closes close text) : EndsNumber text := by
  intro c hmem
  rw [Closes] at h
  rw [h] at hmem
  cases hmem
  exact hc

/-! ### Values

The first character of a value's text tells which kind of value it is, so two values whose
texts agree are of one kind and can be compared part by part.
-/

/-- A first character, with all characters of numbers taken as one. -/
def leadOf (c : Char) : Char := if isNumberChar c then '0' else c

/-- The first character of the text of a value. -/
def lead : Json → Char
  | null => 'n'
  | boolean true => 't'
  | boolean false => 'f'
  | number _ => '0'
  | string _ => '"'
  | array _ => '['
  | object _ => '\x7b'

theorem lead_mem (value : Json) : value.lead ∈ ['n', 't', 'f', '0', '"', '[', '\x7b'] := by
  cases value with
  | boolean value => cases value <;> simp [lead]
  | _ => simp [lead]

theorem number_render_ne_nil (n : Number) : n.render.toList ≠ [] := by
  cases n with
  | integer value =>
      show (toString value).toList ≠ []
      rw [Decimal.toList_toString_int]
      split
      · exact Nat.toDigits_ne_nil
      · simp
  | decimal value =>
      obtain ⟨c, hc, -⟩ := Decimal.exists_mark_mem_render Number.decimalLayout value
      exact List.ne_nil_of_mem hc

theorem head_render (a : Json) : a.render.toList.head?.map leadOf = some a.lead := by
  cases a with
  | null => rfl
  | boolean value => cases value <;> rfl
  | number n =>
      show n.render.toList.head?.map leadOf = some '0'
      cases hn : n.render.toList with
      | nil => exact absurd hn (number_render_ne_nil n)
      | cons c rest =>
          have hc : isNumberChar c = true := isNumberChar_of_mem_render (n := n) (by simp [hn])
          simp [leadOf, hc]
  | string text => simp [render, toList_quote, lead, leadOf, isNumberChar]
  | array items => simp [render, lead, leadOf, isNumberChar]
  | object fields => simp [render, lead, leadOf, isNumberChar]

theorem render_ne_nil (a : Json) : a.render.toList ≠ [] := by
  intro h
  have hhead := head_render a
  rw [h] at hhead
  cases hhead

/-- Texts that agree begin alike. -/
theorem head_append {text x : List Char} (h : text ≠ []) : (text ++ x).head? = text.head? := by
  cases text with
  | nil => exact absurd rfl h
  | cons c text => rfl

theorem lead_eq {a b : Json} {x y : List Char}
    (h : a.render.toList ++ x = b.render.toList ++ y) : a.lead = b.lead := by
  have hhead := congrArg (fun text : List Char => text.head?.map leadOf) h
  simp only [head_append (render_ne_nil _), head_render] at hhead
  exact Option.some.inj hhead

/-- The text of a value fixes it, if a number at its end ends there. -/
def ReadsAlone (a : Json) : Prop :=
  ∀ (b : Json) (x y : List Char), EndsNumber x → EndsNumber y →
    a.render.toList ++ x = b.render.toList ++ y → a = b ∧ x = y

theorem items_unique {as bs : List Json} (ih : ∀ a ∈ as, ReadsAlone a) {x y : List Char}
    (h : (renderItems as).toList ++ ']' :: x = (renderItems bs).toList ++ ']' :: y) :
    as = bs ∧ x = y := by
  have hlead : ∀ b : Json, b.lead ≠ ']' := by
    intro b hb
    have hmem := lead_mem b
    rw [hb] at hmem
    simp at hmem
  -- an array with items does not begin like an empty one
  have hempty : ∀ (b : Json) (rest : List Char) (z : List Char),
      ']' :: z ≠ b.render.toList ++ rest := by
    intro b rest z hz
    have hhead := congrArg (fun text : List Char => text.head?.map leadOf) hz
    simp only [head_append (render_ne_nil b), head_render] at hhead
    exact hlead b (Option.some.inj hhead).symm
  cases as with
  | nil =>
      cases bs with
      | nil => simpa [renderItems] using h
      | cons b bs =>
          rw [toList_renderItems, List.append_assoc] at h
          exact absurd h (hempty b _ x)
  | cons a as =>
      cases bs with
      | nil =>
          rw [toList_renderItems, List.append_assoc] at h
          exact absurd h.symm (hempty a _ y)
      | cons b bs =>
          rw [toList_renderItems, toList_renderItems, List.append_assoc, List.append_assoc] at h
          obtain ⟨hitems, hxy⟩ := Text.separated_unique id EndsNumber (Closes ']')
            (fun r => endsNumber_cons (by decide) r)
            (endsNumber_of_closes (by decide)) (by rintro r w hr rfl; simp [Closes] at hr)
            (fun c hc d _ x y hx hy hxy => ih c hc d x y hx hy hxy)
            (closes_cons ']' x) (closes_cons ']' y) h
          exact ⟨by simpa using hitems, (List.cons.inj hxy).2⟩

theorem fields_unique {as bs : List (String × Json)} (ih : ∀ a ∈ as, ReadsAlone a.2)
    {x y : List Char}
    (h : (renderFields as).toList ++ '\x7d' :: x = (renderFields bs).toList ++ '\x7d' :: y) :
    as = bs ∧ x = y := by
  cases as with
  | nil =>
      cases bs with
      | nil => simpa [renderFields] using h
      | cons b bs => simp [renderFields, toList_renderFields, fieldText, toList_quote] at h
  | cons a as =>
      cases bs with
      | nil => simp [renderFields, toList_renderFields, fieldText, toList_quote] at h
      | cons b bs =>
          rw [toList_renderFields, toList_renderFields, List.append_assoc, List.append_assoc] at h
          obtain ⟨hfields, hxy⟩ := Text.separated_unique id EndsNumber (Closes '\x7d')
            (fun r => endsNumber_cons (by decide) r)
            (endsNumber_of_closes (by decide)) (by rintro r w hr rfl; simp [Closes] at hr)
            (by
              intro c hc d _ x y hx hy hxy
              simp only [fieldText, List.append_assoc, List.cons_append] at hxy
              obtain ⟨hkey, hrest⟩ := quote_unique hxy
              obtain ⟨hvalue, hxy⟩ := ih c hc d.2 x y hx hy (List.cons.inj hrest).2
              exact ⟨Prod.ext hkey hvalue, hxy⟩)
            (closes_cons '\x7d' x) (closes_cons '\x7d' y) h
          exact ⟨by simpa using hfields, (List.cons.inj hxy).2⟩

/-- Values whose texts begin alike are of one kind. -/
theorem sameKind_of_lead {a b : Json} (h : a.lead = b.lead) :
    a = b ∨ (∃ m n, a = number m ∧ b = number n) ∨ (∃ s t, a = string s ∧ b = string t)
      ∨ (∃ as bs, a = array as ∧ b = array bs) ∨ ∃ as bs, a = object as ∧ b = object bs := by
  cases a with
  | boolean value =>
      cases b with
      | boolean other => cases value <;> cases other <;> simp_all [lead]
      | _ => cases value <;> simp [lead] at h
  | _ =>
      cases b with
      | boolean other => cases other <;> simp [lead] at h
      | _ => simp_all [lead]

/-- **The text of a value, followed by what cannot continue a number, fixes the value.** -/
theorem render_unique (a : Json) : ReadsAlone a := by
  induction a using Json.induction with
  | step a ih =>
      intro b x y hx hy h
      rcases sameKind_of_lead (lead_eq h) with rfl | ⟨m, n, rfl, rfl⟩ | ⟨s, t, rfl, rfl⟩
        | ⟨as, bs, rfl, rfl⟩ | ⟨as, bs, rfl, rfl⟩
      · exact ⟨rfl, List.append_cancel_left h⟩
      · obtain ⟨rfl, hxy⟩ := number_unique hx hy h
        exact ⟨rfl, hxy⟩
      · obtain ⟨rfl, hxy⟩ := quote_unique h
        exact ⟨rfl, hxy⟩
      · have hitems : as = bs ∧ x = y :=
          items_unique (show ∀ a ∈ as, ReadsAlone a from ih) (by simpa [render] using h)
        exact ⟨by rw [hitems.1], hitems.2⟩
      · have hfields : as = bs ∧ x = y :=
          fields_unique (fun a ha => ih a.2 (List.mem_map.mpr ⟨a, ha, rfl⟩))
            (by simpa [render] using h)
        exact ⟨by rw [hfields.1], hfields.2⟩

/-- **Distinct values have distinct texts.** -/
theorem render_injective {a b : Json} (h : a.render = b.render) : a = b :=
  (render_unique a b [] [] (by simp [EndsNumber]) (by simp [EndsNumber]) (by rw [h])).1

end ApiTypings.Json
