/-
The escapes of template text.

The text of a template is escaped in one pass.  One can as well put in the backslashes by three
replacements, one behind the other: first those before backslashes, then those before backticks,
then those before dollar signs that a brace follows.  The order is what makes this come out the
same: a later replacement puts a backslash in, but never meets one that it would escape, and none
of them separates a dollar sign from its brace.

Read as the text of a template, with a backslash in front of whatever it makes ordinary, the
escaped text gives back every character.  The reading ends exactly where the escaped text does, if
a backtick or a placeholder follows.  The seam needs this: a dollar sign at the end of the text
stays as it is, and would open a placeholder with a brace behind it.
-/
import Mathlib
import ApiTypings.Proofs.TypeText.Templates

namespace ApiTypings

open Text

/-- Text with each `c` replaced. -/
def replaceChar (c : Char) (by_ : List Char) (text : List Char) : List Char :=
  text.flatMap fun d => if d = c then by_ else [d]

/-- Template text escaped by three replacements. -/
def escapeTemplateInTurn (text : List Char) : List Char :=
  let slashes := replaceChar '\\' ['\\', '\\'] text
  let backticks := replaceChar '\x60' ['\\', '\x60'] slashes
  replacePair '$' '\x7b' ['\\', '$', '\x7b'] backticks

/-! ### What a replacement does at the front of a text -/

theorem replaceChar_self (c : Char) (by_ text : List Char) :
    replaceChar c by_ (c :: text) = by_ ++ replaceChar c by_ text := by
  simp [replaceChar]

theorem replaceChar_of_ne {c d : Char} (h : d ≠ c) (by_ text : List Char) :
    replaceChar c by_ (d :: text) = d :: replaceChar c by_ text := by
  simp [replaceChar, h]

theorem replacePair_of_ne {a b c : Char} (h : c ≠ a) (by_ text : List Char) :
    replacePair a b by_ (c :: text) = c :: replacePair a b by_ text := by
  cases text with
  | nil => simp [replacePair]
  | cons d text => rw [replacePair, if_neg fun hpair => h hpair.1]

/-- A character that the second of the pair does not follow stays. -/
theorem replacePair_of_head_ne {a b c : Char} {text : List Char} (h : text.head? ≠ some b)
    (by_ : List Char) : replacePair a b by_ (c :: text) = c :: replacePair a b by_ text := by
  cases text with
  | nil => simp [replacePair]
  | cons d text =>
      have hd : d ≠ b := by simpa using h
      rw [replacePair, if_neg fun hpair => hd hpair.2]

/-- Where a brace does not begin a text, none does when backslashes are put in. -/
theorem head?_replaceChar_ne {c d e : Char} {text rest : List Char} (hd : d ≠ e)
    (h : text.head? ≠ some e) : (replaceChar c (d :: rest) text).head? ≠ some e := by
  cases text with
  | nil => simp [replaceChar]
  | cons x text =>
      have hx : x ≠ e := by simpa using h
      by_cases hc : x = c
      · rw [hc, replaceChar_self]
        simpa using hd
      · rw [replaceChar_of_ne hc]
        simpa using hx

/-! ### One pass and three -/

theorem escapeTemplate_eq (text : List Char) : escapeTemplate text = escapeTemplateInTurn text := by
  unfold escapeTemplateInTurn
  simp only
  fun_induction escapeTemplate text with
  | case1 => rfl
  | case2 text ih =>
      rw [replaceChar_of_ne (by decide), replaceChar_of_ne (by decide),
        replaceChar_of_ne (by decide), replaceChar_of_ne (by decide), replacePair,
        if_pos ⟨rfl, rfl⟩, ih]
      rfl
  | case3 c text hdollar hc ih =>
      rcases hc with rfl | rfl
      · rw [replaceChar_self, List.cons_append, List.cons_append, List.nil_append,
          replaceChar_of_ne (by decide), replaceChar_of_ne (by decide),
          replacePair_of_ne (by decide), replacePair_of_ne (by decide), ih]
      · rw [replaceChar_of_ne (by decide), replaceChar_self, List.cons_append, List.cons_append,
          List.nil_append, replacePair_of_ne (by decide), replacePair_of_ne (by decide), ih]
  | case4 c text hdollar hc ih =>
      rw [not_or] at hc
      rw [replaceChar_of_ne hc.1, replaceChar_of_ne hc.2, ih]
      by_cases hbrace : text.head? = some '\x7b'
      · obtain ⟨rest, rfl⟩ := List.head?_eq_some_iff.mp hbrace
        rw [replacePair_of_ne fun hc => hdollar rest hc rfl]
      · rw [replacePair_of_head_ne]
        exact head?_replaceChar_ne (by decide) (head?_replaceChar_ne (by decide) hbrace)

/-! ### Reading escaped text -/

/-- **Escaped text reads as what it stands for.**  Three replacements in turn escape the text of
a template, and whatever the text is, reading goes through all of it and ends where it does, if
the template ends there or a placeholder begins.  In a template something of this kind follows
each text that no other text follows. -/
theorem scanTemplateText_inTurn (text : String) :
    escapeTemplate text.toList = escapeTemplateInTurn text.toList
      ∧ (∀ rest, EndsTemplateText rest →
        scanTemplateText (escapeTemplate text.toList ++ rest) = (text.toList, rest))
      ∧ ∀ parts : List TemplatePart, (∀ part ∈ parts.head?, part.isText = false) → ∀ rest,
        scanTemplateText ((TypeExpr.renderParts (.text text :: parts)).toList ++ '\x60' :: rest)
          = (text.toList, (TypeExpr.renderParts parts).toList ++ '\x60' :: rest) := by
  have hread : ∀ rest, EndsTemplateText rest →
      scanTemplateText (escapeTemplate text.toList ++ rest) = (text.toList, rest) := by
    intro rest hrest
    exact scanTemplateText_escape text.toList hrest
  refine ⟨escapeTemplate_eq text.toList, hread, ?_⟩
  intro parts hparts rest
  rw [TypeExpr.toList_renderParts_text, List.append_assoc]
  exact hread _ (TypeExpr.endsTemplateText_parts hparts rest)

/-- A text with backslashes before a backtick and before a placeholder, which ends in a dollar
sign and has a placeholder behind it. -/
theorem scanTemplateText_inTurn_dollar :
    let text := "\\\x60\\$\x7b\\\\$"
    let parts : List TemplatePart := [.type (.name "Query")]
    let rest := "$\x7bQuery\x7d\x60".toList
    (EndsTemplateText rest ∧ ∀ part ∈ parts.head?, part.isText = false)
      ∧ escapeTemplate text.toList = escapeTemplateInTurn text.toList
      ∧ scanTemplateText (escapeTemplate text.toList ++ rest) = (text.toList, rest)
      ∧ scanTemplateText ((TypeExpr.renderParts (.text text :: parts)).toList ++ ['\x60'])
        = (text.toList, (TypeExpr.renderParts parts).toList ++ ['\x60']) := by
  intro text parts rest
  have hrest : EndsTemplateText rest := .inr ⟨"Query\x7d\x60".toList, by decide⟩
  have hparts : ∀ part ∈ parts.head?, part.isText = false := by
    intro part hpart
    obtain rfl := Option.mem_some.mp hpart
    rfl
  obtain ⟨hescape, hread, hwritten⟩ := scanTemplateText_inTurn text
  exact ⟨⟨hrest, hparts⟩, hescape, hread rest hrest, hwritten parts hparts []⟩

end ApiTypings
