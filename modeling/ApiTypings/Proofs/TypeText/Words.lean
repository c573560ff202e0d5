/-
Types in one piece: words, literals and what stands in parentheses.

Two pieces are told apart by their first character.  Where two begin alike they are two
words, or two literals, or two of the kinds that have a file of their own.
-/
import Mathlib
import ApiTypings.Proofs.TypeText.Reading

namespace ApiTypings.TypeExpr

/-! ### What pieces begin with -/

/-- A first character, with all upper-case letters and all characters of numbers taken as one. -/
def leadOf (c : Char) : Char := if Text.isUpper c then 'A' else Json.leadOf c

/-- The first character of something in one piece. -/
def lead : TypeExpr → Char
  | keyword .string => 's'
  | keyword .boolean => 'b'
  | keyword .unknown => 'u'
  | keyword .number => 'n'
  | keyword .null => 'n'
  | keyword .never => 'n'
  | literal value => value.lead
  | named _ _ => 'A'
  | template _ => '\x60'
  | array item => lead item
  | object _ => '\x7b'
  | union _ => '('
  | intersection _ => '('

theorem isUpper_lead (value : Json) : Text.isUpper value.lead = false := by
  have hnone : ∀ c ∈ ['n', 't', 'f', '0', '"', '[', '\x7b'], Text.isUpper c = false := by
    intro c hc
    fin_cases hc <;> rfl
  exact hnone _ value.lead_mem

theorem head_literal (value : Json) : value.render.toList.head?.map leadOf = some value.lead := by
  have hhead := Json.head_render value
  cases htext : value.render.toList with
  | nil => exact absurd htext (Json.render_ne_nil value)
  | cons c rest =>
      rw [htext] at hhead
      have hlead : Json.leadOf c = value.lead := by simpa using hhead
      have hupper : Text.isUpper c = false := by
        by_contra hc
        rw [Bool.not_eq_false] at hc
        have hnumber : Decimal.isNumberChar c = false := by
          by_contra hn
          simp only [Text.isUpper, Decimal.isNumberChar, Char.isDigit, Bool.and_eq_true,
            decide_eq_true_eq, Bool.not_eq_false, Bool.or_eq_true] at hc hn
          rcases hn with (((hn | rfl) | rfl) | rfl) | rfl
          · exact absurd (UInt32.le_trans hc.1 hn.2) (by decide)
          all_goals exact absurd hc (by decide)
        have hself : Json.leadOf c = c := by simp [Json.leadOf, hnumber]
        rw [← hself, hlead, isUpper_lead] at hc
        cases hc
      simp [leadOf, hupper, hlead]

theorem head_piece {a : TypeExpr} (ha : Legible a) (hne : ∀ item, a ≠ array item) :
    (operandText .tight a).head?.map leadOf = some a.lead := by
  cases a with
  | keyword k => cases k <;> rfl
  | literal value => exact head_literal value
  | named name args =>
      obtain ⟨c, rest, hname⟩ : ∃ c rest, name.toList = c :: rest := by
        cases hname : name.toList with
        | nil => simp [Legible, IsTypeName, Text.isIdentifier, hname] at ha
        | cons c rest => exact ⟨c, rest, rfl⟩
      have hupper : Text.isUpper c = true := ha.2 c (by simp [hname])
      rw [operandText_of_le (by simp [binding, Binding.rank])]
      cases args <;> simp [render, hname, leadOf, hupper, lead]
  | template parts => simp [operandText, parenthesize, binding, render, lead, leadOf, Text.isUpper,
      Json.leadOf, Decimal.isNumberChar]
  | array item => exact absurd rfl (hne item)
  | object members =>
      cases members with
      | nil => simp [Legible] at ha
      | cons member members => simp [operandText, parenthesize, binding, render, lead, leadOf,
          Text.isUpper, Json.leadOf, Decimal.isNumberChar]
  | union members =>
      rw [operandText_of_lt (by simp [binding, Binding.rank])]
      rfl
  | intersection members =>
      rw [operandText_of_lt (by simp [binding, Binding.rank])]
      rfl

/-- Pieces whose texts agree begin alike. -/
theorem lead_eq {a b : TypeExpr} {x y : List Char} (ha : Legible a) (hb : Legible b)
    (hna : ∀ item, a ≠ array item) (hnb : ∀ item, b ≠ array item)
    (h : operandText .tight a ++ x = operandText .tight b ++ y) : a.lead = b.lead := by
  have hne : ∀ {c : TypeExpr}, Legible c → (∀ item, c ≠ array item) →
      operandText .tight c ≠ [] := by
    intro c hc hnc hnil
    have := head_piece hc hnc
    rw [hnil] at this
    cases this
  have hhead := congrArg (fun text : List Char => text.head?.map leadOf) h
  simp only [Json.head_append (hne ha hna), Json.head_append (hne hb hnb), head_piece ha hna,
    head_piece hb hnb] at hhead
  exact Option.some.inj hhead

/-! ### Words and literals -/

theorem keyword_unique {k l : Keyword} {x y : List Char}
    (h : k.render.toList ++ x = l.render.toList ++ y) : k = l ∧ x = y := by
  cases k <;> cases l <;> simp_all [Keyword.render]

theorem operandText_keyword (k : Keyword) : operandText .tight (keyword k) = k.render.toList := by
  simp [operandText, parenthesize, binding, render]

theorem operandText_literal (value : Json) :
    operandText .tight (literal value) = value.render.toList := by
  simp [operandText, parenthesize, binding, render]

/-- The literal null is written as the keyword. -/
theorem operandText_null :
    operandText .tight (literal .null) = operandText .tight (keyword .null) :=
  rfl

theorem nullAsKeyword_null : (literal .null).nullAsKeyword = (keyword .null).nullAsKeyword := by
  rw [nullAsKeyword, nullAsKeyword]

/-- Among literals only null begins like a keyword. -/
theorem eq_null_of_lead {k : Keyword} {value : Json} (h : (keyword k).lead = value.lead) :
    value = .null := by
  cases value with
  | null => rfl
  | boolean value => cases value <;> cases k <;> simp [lead, Json.lead] at h
  | _ => cases k <;> simp [lead, Json.lead] at h

theorem reads_keyword (k : Keyword) : ReadsPiece (keyword k) := by
  intro b x y hb hnb hx hy h
  have hlead := lead_eq (a := keyword k) trivial hb.self (by simp) hnb h
  have hkeyword : ∀ l, operandText .tight (keyword k) ++ x = operandText .tight (keyword l) ++ y →
      (keyword k).nullAsKeyword = (keyword l).nullAsKeyword ∧ x = y := by
    intro l hl
    rw [operandText_keyword, operandText_keyword] at hl
    obtain ⟨rfl, hxy⟩ := keyword_unique hl
    exact ⟨rfl, hxy⟩
  cases b with
  | keyword l => exact hkeyword l h
  | literal value =>
      obtain rfl := eq_null_of_lead hlead
      rw [operandText_null] at h
      rw [nullAsKeyword_null]
      exact hkeyword _ h
  | array item => exact absurd rfl (hnb item)
  | _ => cases k <;> simp [lead] at hlead

theorem endsNumber_of_endsPiece {rest : List Char} (h : EndsPiece rest) :
    Json.EndsNumber rest := by
  intro c hc
  have hclosers : ∀ c ∈ [',', '>', '\x7d', ' ', ';', ')', '['], Decimal.isNumberChar c = false := by
    intro c hc
    fin_cases hc <;> rfl
  exact hclosers c (h c hc)

/-- A literal whose text begins with a brace is an object, and no object type. -/
theorem object_text_ne {members : List Member} (hne : members ≠ []) {fields : List (String × Json)}
    {x y : List Char} : operandText .tight (object members) ++ x
      ≠ operandText .tight (literal (.object fields)) ++ y := by
  obtain ⟨member, rest, rfl⟩ := List.exists_cons_of_ne_nil hne
  intro h
  rw [operandText_literal] at h
  simp only [operandText, parenthesize, binding, lt_irrefl, if_false, render, Json.render,
    String.toList_append] at h
  cases fields with
  | nil => simp [Json.renderFields] at h
  | cons field fields =>
      simp [Json.toList_renderFields, Json.fieldText, Json.toList_quote] at h

theorem exists_fields_of_lead {value : Json} (h : value.lead = '\x7b') :
    ∃ fields, value = .object fields := by
  cases value with
  | object fields => exact ⟨fields, rfl⟩
  | boolean value => cases value <;> simp [Json.lead] at h
  | _ => simp [Json.lead] at h

theorem reads_literal (value : Json) : ReadsPiece (literal value) := by
  by_cases hnull : value = .null
  · subst hnull
    intro b x y hb hnb hx hy h
    rw [operandText_null] at h
    rw [nullAsKeyword_null]
    exact reads_keyword .null b x y hb hnb hx hy h
  intro b x y hb hnb hx hy h
  have hlead := lead_eq (a := literal value) trivial hb.self (by simp) hnb h
  have hmem := value.lead_mem
  cases b with
  | keyword k => exact absurd (eq_null_of_lead hlead.symm) hnull
  | literal other =>
      rw [operandText_literal, operandText_literal] at h
      obtain ⟨rfl, hxy⟩ := Json.render_unique value other x y (endsNumber_of_endsPiece hx)
        (endsNumber_of_endsPiece hy) h
      exact ⟨rfl, hxy⟩
  | object members =>
      obtain ⟨fields, rfl⟩ := exists_fields_of_lead hlead
      exact absurd h.symm (object_text_ne hb.self)
  | array item => exact absurd rfl (hnb item)
  | _ =>
      rw [show value.lead = _ from hlead] at hmem
      simp [lead] at hmem

/-! ### Parentheses -/

theorem reads_grouped {a : TypeExpr} (ha : Legible a)
    (hgroup : a.binding.rank < Binding.tight.rank) (h : Reads .union a) : ReadsPiece a := by
  intro b x y hb hnb hx hy heq
  have hna : ∀ item, a ≠ array item := by
    rintro item rfl
    simp [binding] at hgroup
  have hlead := lead_eq ha hb.self hna hnb heq
  have hopen : a.lead = '(' := by
    cases a <;> simp_all [binding, lead]
  have hgroupB : b.binding.rank < Binding.tight.rank := by
    rw [hopen] at hlead
    cases b with
    | union members => simp [binding, Binding.rank]
    | intersection members => simp [binding, Binding.rank]
    | keyword k => cases k <;> simp [lead] at hlead
    | literal value =>
        have hmem := value.lead_mem
        rw [show value.lead = _ from hlead.symm] at hmem
        simp at hmem
    | array item => exact absurd rfl (hnb item)
    | _ => simp [lead] at hlead
  rw [operandText_of_lt hgroup, operandText_of_lt hgroupB, ← operandText_union,
    ← operandText_union] at heq
  simp only [inParens, List.cons_append, List.append_assoc, List.cons.injEq, true_and,
    List.nil_append] at heq
  obtain ⟨hab, hxy⟩ := h b _ _ hb (ends_cons (by simp) x) (ends_cons (by simp) y) heq
  exact ⟨hab, (List.cons.inj hxy).2⟩

end ApiTypings.TypeExpr
