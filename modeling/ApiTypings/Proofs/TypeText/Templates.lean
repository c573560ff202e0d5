/-
Templates.

The text of a template is read up to the backtick or the placeholder that ends it.  Texts
that touch would be read as one, and so would an empty text and none at all; both are
excluded by what is legible.
-/
import Mathlib
import ApiTypings.Proofs.TypeText.Words

namespace ApiTypings

/-! ### Text in templates

The text of a template is read back character by character; a backslash makes the next
character an ordinary one.
-/

/-- Reads the text at the front of a template, up to the end or the next placeholder. -/
def scanTemplateText : List Char → List Char × List Char
  | [] => ([], [])
  | '\x60' :: rest => ([], '\x60' :: rest)
  | '$' :: '\x7b' :: rest => ([], '$' :: '\x7b' :: rest)
  | '\\' :: c :: rest => (c :: (scanTemplateText rest).1, (scanTemplateText rest).2)
  | c :: rest => (c :: (scanTemplateText rest).1, (scanTemplateText rest).2)

/-- A place where the text of a template ends. -/
def EndsTemplateText (rest : List Char) : Prop :=
  (∃ r, rest = '\x60' :: r) ∨ ∃ r, rest = '$' :: '\x7b' :: r

/-- A brace stands at the front of escaped text only if it stands at the front of the text. -/
theorem head_escapeTemplate {text rest r : List Char} (hr : EndsTemplateText rest)
    (h : escapeTemplate text ++ rest = '\x7b' :: r) : ∃ t, text = '\x7b' :: t := by
  have hrest : ∀ r, rest ≠ '\x7b' :: r := by
    rintro r rfl
    rcases hr with ⟨_, h⟩ | ⟨_, h⟩ <;> simp at h
  unfold escapeTemplate at h
  split at h
  · exact absurd h (hrest r)
  · simp at h
  · rename_i c text hne
    split at h
    · simp at h
    · rw [List.cons_append, List.cons.injEq] at h
      exact ⟨text, by rw [h.1]⟩

theorem scanTemplateText_escape (text : List Char) {rest : List Char} (hr : EndsTemplateText rest) :
    scanTemplateText (escapeTemplate text ++ rest) = (text, rest) := by
  fun_induction escapeTemplate text with
  | case1 => rcases hr with ⟨r, rfl⟩ | ⟨r, rfl⟩ <;> simp [scanTemplateText]
  | case2 text ih =>
      have hbrace : scanTemplateText ('\x7b' :: (escapeTemplate text ++ rest))
          = ('\x7b' :: text, rest) := by
        rw [scanTemplateText, ih] <;> simp
      simp [scanTemplateText, hbrace]
  | case3 c text hdollar hc ih =>
      rcases hc with rfl | rfl <;> simp [scanTemplateText, ih]
  | case4 c text hdollar hc ih =>
      rw [not_or] at hc
      rw [List.cons_append, scanTemplateText, ih]
      · exact hc.2
      · intro r hcd hbrace
        obtain ⟨t, ht⟩ := head_escapeTemplate hr hbrace
        exact hdollar t hcd ht
      · exact fun _ _ hslash _ => hc.1 hslash

/-- Escaped text is fixed by what it looks like in a template. -/
theorem escapeTemplate_unique {a b x y : List Char} (hx : EndsTemplateText x)
    (hy : EndsTemplateText y) (h : escapeTemplate a ++ x = escapeTemplate b ++ y) :
    a = b ∧ x = y := by
  have hread := scanTemplateText_escape a hx
  rw [h, scanTemplateText_escape b hy, Prod.mk.injEq] at hread
  exact ⟨hread.1.symm, hread.2.symm⟩

namespace TypeExpr

/-! ### Templates -/

theorem operandText_template (parts : List TemplatePart) :
    operandText .tight (template parts) = '\x60' :: ((renderParts parts).toList ++ ['\x60']) := by
  simp [operandText, parenthesize, binding, render]

theorem toList_renderParts_text (text : String) (parts : List TemplatePart) :
    (renderParts (.text text :: parts)).toList
      = escapeTemplate text.toList ++ (renderParts parts).toList := by
  simp [renderParts]

theorem toList_renderParts_type (type : TypeExpr) (parts : List TemplatePart) :
    (renderParts (.type type :: parts)).toList
      = '$' :: '\x7b' :: (operandText .union type ++ '\x7d' :: (renderParts parts).toList) := by
  simp [renderParts, operandText_union]

/-- Where no text follows, the text of a template ends. -/
theorem endsTemplateText_parts {parts : List TemplatePart}
    (h : ∀ part ∈ parts.head?, part.isText = false) (x : List Char) :
    EndsTemplateText ((renderParts parts).toList ++ '\x60' :: x) := by
  cases parts with
  | nil => exact Or.inl ⟨x, rfl⟩
  | cons part parts =>
      cases part with
      | text text => simp [TemplatePart.isText] at h
      | type type =>
          rw [toList_renderParts_type]
          exact Or.inr ⟨_, rfl⟩

theorem separateTexts_tail {part : TemplatePart} {parts : List TemplatePart}
    (h : TemplatePart.SeparateTexts (part :: parts)) : TemplatePart.SeparateTexts parts :=
  h.tail

theorem separateTexts_head {text : String} {parts : List TemplatePart}
    (h : TemplatePart.SeparateTexts (.text text :: parts)) :
    ∀ part ∈ parts.head?, part.isText = false := by
  cases parts with
  | nil => simp
  | cons part parts =>
      have hpair := (List.isChain_cons_cons.mp h).1
      simpa [TemplatePart.isText] using hpair

/-- Text that is not empty does not look like the end of the text of a template. -/
theorem escaped_ne {text : String} (hne : text ≠ "") {x y : List Char} (hx : EndsTemplateText x)
    (hy : EndsTemplateText y) : escapeTemplate text.toList ++ x ≠ y := by
  intro h
  have hnil := (escapeTemplate_unique (b := []) hx hy h).1
  exact hne (String.toList_eq_nil_iff.mp hnil)

/-- What `Legible` asks of the parts of a template. -/
def LegibleParts (parts : List TemplatePart) : Prop :=
  .text "" ∉ parts ∧ TemplatePart.SeparateTexts parts

theorem LegibleParts.tail {part : TemplatePart} {parts : List TemplatePart}
    (h : LegibleParts (part :: parts)) : LegibleParts parts :=
  ⟨fun hmem => h.1 (List.mem_cons_of_mem _ hmem), separateTexts_tail h.2⟩

/-- In front of a text that is not empty, nothing else can stand. -/
theorem text_ne_parts {text : String} {parts others : List TemplatePart}
    (h : LegibleParts (.text text :: parts)) (ho : ∀ part ∈ others.head?, part.isText = false)
    {x y : List Char} : (renderParts (.text text :: parts)).toList ++ '\x60' :: x
      ≠ (renderParts others).toList ++ '\x60' :: y := by
  have hne : text ≠ "" := by
    rintro rfl
    exact h.1 (by simp)
  rw [toList_renderParts_text, List.append_assoc]
  exact escaped_ne hne (endsTemplateText_parts (separateTexts_head h.2) x)
    (endsTemplateText_parts ho y)

theorem parts_unique {parts : List TemplatePart} (hparts : LegibleParts parts)
    (ih : ∀ type, .type type ∈ parts → Reads .union type) :
    ∀ {others : List TemplatePart}, LegibleParts others →
      (∀ type, .type type ∈ others → Everywhere Legible type) → ∀ {x y : List Char},
      (renderParts parts).toList ++ '\x60' :: x = (renderParts others).toList ++ '\x60' :: y →
      parts.map TemplatePart.nullAsKeyword = others.map TemplatePart.nullAsKeyword ∧ x = y := by
  induction parts with
  | nil =>
      intro others hothers _ x y h
      cases others with
      | nil => exact ⟨rfl, (List.cons.inj h).2⟩
      | cons other others =>
          cases other with
          | text text => exact absurd h.symm (text_ne_parts hothers (by simp))
          | type type =>
              rw [toList_renderParts_type] at h
              simp [renderParts] at h
  | cons part parts ihparts =>
      intro others hothers hlegible x y h
      have htail := fun type htype => ih type (List.mem_cons_of_mem part htype)
      cases part with
      | text text =>
          cases others with
          | nil => exact absurd h (text_ne_parts hparts (by simp))
          | cons other others =>
              cases other with
              | text second =>
                  rw [toList_renderParts_text, toList_renderParts_text, List.append_assoc,
                    List.append_assoc] at h
                  obtain ⟨htext, hrest⟩ := escapeTemplate_unique
                    (endsTemplateText_parts (separateTexts_head hparts.2) x)
                    (endsTemplateText_parts (separateTexts_head hothers.2) y) h
                  obtain ⟨hmap, hxy⟩ := ihparts hparts.tail htail hothers.tail
                    (fun type htype => hlegible type (List.mem_cons_of_mem _ htype)) hrest
                  rw [List.map_cons, List.map_cons, hmap, String.toList_inj.mp htext]
                  exact ⟨rfl, hxy⟩
              | type type =>
                  exact absurd h (text_ne_parts hparts (by simp [TemplatePart.isText]))
      | type type =>
          cases others with
          | nil =>
              rw [toList_renderParts_type] at h
              simp [renderParts] at h
          | cons other others =>
              cases other with
              | text text =>
                  exact absurd h.symm (text_ne_parts hothers (by simp [TemplatePart.isText]))
              | type second =>
                  rw [toList_renderParts_type, toList_renderParts_type] at h
                  simp only [List.cons_append, List.append_assoc, List.cons.injEq, true_and] at h
                  obtain ⟨htype, hrest⟩ := ih type (by simp) second _ _ (hlegible second (by simp))
                    (ends_cons (by simp) _) (ends_cons (by simp) _) h
                  obtain ⟨hmap, hxy⟩ := ihparts hparts.tail htail hothers.tail
                    (fun type htype => hlegible type (List.mem_cons_of_mem _ htype))
                    (List.cons.inj hrest).2
                  rw [List.map_cons, List.map_cons, hmap, TemplatePart.nullAsKeyword,
                    TemplatePart.nullAsKeyword, htype]
                  exact ⟨rfl, hxy⟩

theorem reads_template {parts : List TemplatePart} (hparts : LegibleParts parts)
    (ih : ∀ type, .type type ∈ parts → Reads .union type) : ReadsPiece (template parts) := by
  intro b x y hb hnb hx hy h
  have hlead := lead_eq (a := template parts) hparts hb.self (by simp) hnb h
  cases b with
  | template others =>
      simp only [operandText_template, List.cons_append, List.append_assoc, List.cons.injEq,
        true_and, List.nil_append] at h
      obtain ⟨hmap, hxy⟩ := parts_unique hparts ih hb.self
        (fun type htype => hb.child (mem_children_template.mpr htype)) h
      rw [nullAsKeyword, nullAsKeyword, nullAsKeywordParts_eq, nullAsKeywordParts_eq, hmap]
      exact ⟨rfl, hxy⟩
  | keyword k => cases k <;> simp [lead] at hlead
  | literal value =>
      have hmem := value.lead_mem
      rw [show value.lead = _ from hlead.symm] at hmem
      simp [lead] at hmem
  | array item => exact absurd rfl (hnb item)
  | _ => simp [lead] at hlead

end TypeExpr
end ApiTypings
