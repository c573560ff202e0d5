/-
Where words end.

Words are cut off one by one, and whether the first character of a text is a word of its own shows
in the two characters behind it.  Boundaries are told by the characters around them and nothing
else: two word characters that follow one another, whatever stands between them, are in different
words exactly if something does stand between them, or if an upper-case letter begins a word there.
A character put in front of a text either begins a word of its own or joins the first one, and both
leave alone which characters further on share a word, so one look at the front is enough.
-/
import Mathlib
import ApiTypings.Proofs.WordNames

namespace ApiTypings.Text

/-- The word characters of a text. -/
def kept (text : List Char) : List Char := text.filter isWordChar

/-- The number of the word that has the character at a position of all words in a row. -/
def wordNumber : List (List Char) → Nat → Nat
  | [], _ => 0
  | word :: words, position =>
    if position < word.length then 0 else wordNumber words (position - word.length) + 1

/-- Whether a word ends between two word characters, with `gap` between them and `after` behind
them. -/
def Parts (a : Char) (gap : List Char) (b : Char) (after : List Char) : Prop :=
  gap ≠ [] ∨ (isLower a = true ∨ isDigit a = true) ∧ isUpper b = true
    ∨ isUpper a = true ∧ isUpper b = true ∧ ∃ c ∈ after.head?, isLower c = true

/-- What the words of a text are. -/
structure Splits (text : List Char) (words : List (List Char)) : Prop where
  /-- Each is made of word characters, and of one at least. -/
  isWord : ∀ word ∈ words, IsWord word
  /-- In a row they are the text without anything else. -/
  flatten_eq : words.flatten = kept text
  /-- Two word characters with none between them are in different words where a word ends.  The
  first is at the position that the word characters before it are counted to, and the second at the
  next. -/
  number_ne_iff : ∀ before a gap b after, text = before ++ a :: gap ++ b :: after →
    isWordChar a = true → isWordChar b = true → (∀ c ∈ gap, isWordChar c = false) →
    (wordNumber words (kept before).length ≠ wordNumber words ((kept before).length + 1)
      ↔ Parts a gap b after)

/-! ### A character more in front -/

theorem wordNumber_single (c : Char) (words : List (List Char)) (position : Nat) :
    wordNumber ([c] :: words) (position + 1) = wordNumber words position + 1 := by
  simp [wordNumber]

theorem wordNumber_cons (c : Char) (word : List Char) (words : List (List Char)) (position : Nat) :
    wordNumber ((c :: word) :: words) (position + 1) = wordNumber (word :: words) position := by
  simp [wordNumber]

theorem wordsOf_cons_of_not {c : Char} (h : isWordChar c = false) (text : List Char) :
    wordsOf (c :: text) = wordsOf text := by
  have hnot : (!isWordChar c) = true := by simp [h]
  rw [wordsOf.eq_def (c :: text)]
  exact if_pos hnot

/-- A word ends in front of what is not of a word, and where the neighbours say so. -/
theorem wordsOf_cons_of_ends {a b : Char} {rest : List Char} (ha : isWordChar a = true)
    (h : isWordChar b = false ∨ endsBetween a b rest = true) :
    wordsOf (a :: b :: rest) = [a] :: wordsOf (b :: rest) := by
  have hends : (!isWordChar b || endsBetween a b rest) = true := by simpa using h
  rw [wordsOf, if_neg (by simp [ha])]
  simp only [if_pos hends]

/-- Everywhere else the character belongs to the word that comes next. -/
theorem wordsOf_cons_of_goesOn {a b : Char} {rest : List Char} (ha : isWordChar a = true)
    (hb : isWordChar b = true) (h : endsBetween a b rest = false) :
    ∃ word words, wordsOf (b :: rest) = word :: words
      ∧ wordsOf (a :: b :: rest) = (a :: word) :: words := by
  have hne : wordsOf (b :: rest) ≠ [] := by
    intro hnil
    have hflatten := flatten_wordsOf (b :: rest)
    rw [hnil, List.filter_cons_of_pos hb] at hflatten
    cases hflatten
  obtain ⟨word, words, hwords⟩ := List.exists_cons_of_ne_nil hne
  refine ⟨word, words, hwords, ?_⟩
  rw [wordsOf, if_neg (by simp [ha])]
  simp only [hb, h, hwords]
  simp

theorem wordsOf_cons_cases {c : Char} (hc : isWordChar c = true) (text : List Char) :
    wordsOf (c :: text) = [c] :: wordsOf text
      ∨ ∃ word words, wordsOf text = word :: words
        ∧ wordsOf (c :: text) = (c :: word) :: words := by
  cases text with
  | nil =>
      left
      simp [wordsOf, hc]
  | cons d rest =>
      by_cases hends : isWordChar d = false ∨ endsBetween c d rest = true
      · left
        exact wordsOf_cons_of_ends hc hends
      · right
        rw [not_or, Bool.not_eq_false, Bool.not_eq_true] at hends
        exact wordsOf_cons_of_goesOn hc hends.1 hends.2

/-- Characters further on share a word if they did without the character in front. -/
theorem wordNumber_cons_ne_iff {c : Char} (hc : isWordChar c = true) (text : List Char)
    (first second : Nat) :
    wordNumber (wordsOf (c :: text)) (first + 1) ≠ wordNumber (wordsOf (c :: text)) (second + 1)
      ↔ wordNumber (wordsOf text) first ≠ wordNumber (wordsOf text) second := by
  rcases wordsOf_cons_cases hc text with hwords | ⟨word, words, htext, hwords⟩
  · rw [hwords, wordNumber_single, wordNumber_single]
    omega
  · rw [hwords, htext, wordNumber_cons, wordNumber_cons]

/-! ### Boundaries -/

theorem parts_nil_iff (a b : Char) (after : List Char) :
    Parts a [] b after ↔ endsBetween a b after = true := by
  simp [Parts, endsBetween, Option.any_eq_true, and_assoc]

/-- The first two word characters of a text are in different words where a word ends. -/
theorem wordNumber_front_ne_iff {a b : Char} {gap after : List Char} (ha : isWordChar a = true)
    (hb : isWordChar b = true) (hgap : ∀ c ∈ gap, isWordChar c = false) :
    wordNumber (wordsOf (a :: gap ++ b :: after)) 0
      ≠ wordNumber (wordsOf (a :: gap ++ b :: after)) 1 ↔ Parts a gap b after := by
  have hfirst : ∀ words : List (List Char), wordNumber ([a] :: words) 0
      ≠ wordNumber ([a] :: words) 1 := by
    intro words
    simp [wordNumber]
  cases gap with
  | cons g gap =>
      have hwords : wordsOf (a :: g :: (gap ++ b :: after)) = _ :=
        wordsOf_cons_of_ends ha (.inl (hgap g (by simp)))
      have hparts : Parts a (g :: gap) b after := .inl (List.cons_ne_nil _ _)
      rw [List.cons_append, List.cons_append, hwords]
      exact iff_of_true (hfirst _) hparts
  | nil =>
      rw [parts_nil_iff]
      show wordNumber (wordsOf (a :: b :: after)) 0 ≠ wordNumber (wordsOf (a :: b :: after)) 1 ↔ _
      by_cases hends : endsBetween a b after = true
      · rw [wordsOf_cons_of_ends ha (.inr hends)]
        exact iff_of_true (hfirst _) hends
      · obtain ⟨word, words, hrest, hwords⟩ :=
          wordsOf_cons_of_goesOn ha hb (by simpa using hends)
        have hword : word ≠ [] := ne_nil_of_mem_wordsOf (b :: after) word (by simp [hrest])
        have hlength := List.length_pos_iff.mpr hword
        rw [hwords]
        simp [wordNumber, hlength, hends]

theorem splits_wordsOf (text : List Char) : Splits text (wordsOf text) where
  isWord := isWord_of_mem_wordsOf text
  flatten_eq := flatten_wordsOf text
  number_ne_iff := by
    rintro before a gap b after rfl ha hb hgap
    induction before with
    | nil => exact wordNumber_front_ne_iff ha hb hgap
    | cons c before ih =>
        rw [List.cons_append, List.cons_append]
        by_cases hc : isWordChar c = true
        · have hlength : (kept (c :: before)).length = (kept before).length + 1 := by
            simp [kept, hc]
          rw [hlength, wordNumber_cons_ne_iff hc, ih]
        · have hkept : kept (c :: before) = kept before := by simp [kept, hc]
          rw [hkept, wordsOf_cons_of_not (by simpa using hc), ih]

end ApiTypings.Text
