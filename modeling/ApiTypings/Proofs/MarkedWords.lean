/-
Words found with marks.

Words can be found with three regular expressions.  A mark is put where an upper-case letter follows
a lower-case letter or a digit, then one in front of the last of several upper-case letters that a
lower-case letter follows, and then what is neither letter nor digit is replaced by a mark; the
words are what stands between marks.

An expression takes the characters on both sides of the place it marks, so a match could hide the
next one, and a mark could keep a later expression from matching.  Neither happens: no match begins
inside of another, and the first expression puts no mark where the second looks.  So the three
replacements cut a text exactly where a word ends, whatever else the text has in it, marks included.
-/
import Mathlib
import ApiTypings.Proofs.Replacement
import ApiTypings.Proofs.WordBoundaries

namespace ApiTypings

deriving instance DecidableEq for Regex
deriving instance DecidableEq for NamedRegex

namespace Text

/-- What is put between words. -/
def mark : Char := '\x00'

/-- Replaces what a regular expression matches that is given as it is written. -/
def replaceAll? (expression : String) (inserts : List Regex.Insert) (text : String) :
    Option String :=
  (NamedRegex.ofText? {} expression).map fun named => named.regex.replaceAll inserts text

/-- The pieces of a text between marks that are not empty. -/
def betweenMarks (text : List Char) : List (List Char) :=
  (splitOnChar mark text).filter fun piece => !piece.isEmpty

/-- The words of a text by three replacements. -/
def wordsByMarks? (text : String) : Option (List String) := do
  let parted := [.group 1, .text [mark], .group 2]
  let atCapitals ← replaceAll? "([a-z0-9])([A-Z])" parted text
  let atAcronyms ← replaceAll? "([A-Z])([A-Z][a-z])" parted atCapitals
  let atGaps ← replaceAll? "[^A-Za-z0-9]+" [.text [mark]] atAcronyms
  return (betweenMarks atGaps.toList).map String.ofList

/-! ### The expressions -/

def lowerOrDigitSet : CharSet := ⟨[('a', 'z'), ('0', '9')], false⟩

def lowerSet : CharSet := ⟨[('a', 'z')], false⟩

def upperSet : CharSet := ⟨[('A', 'Z')], false⟩

/-- What belongs to no word. -/
def gapSet : CharSet := ⟨[('A', 'Z'), ('a', 'z'), ('0', '9')], true⟩

theorem contains_lowerOrDigitSet (c : Char) :
    lowerOrDigitSet.contains c = (isLower c || isDigit c) := by
  simp [lowerOrDigitSet, CharSet.contains, CharSet.covers, isLower, isDigit]

theorem contains_lowerSet (c : Char) : lowerSet.contains c = isLower c := by
  simp [lowerSet, CharSet.contains, CharSet.covers, isLower]

theorem contains_upperSet (c : Char) : upperSet.contains c = isUpper c := by
  simp [upperSet, CharSet.contains, CharSet.covers, isUpper]

theorem contains_gapSet (c : Char) : gapSet.contains c = !isWordChar c := by
  simp [gapSet, CharSet.contains, CharSet.covers, isWordChar, isUpper, isLower, isDigit,
    Bool.or_assoc]

/-- The expressions as they are read. -/
theorem expressions_read :
    NamedRegex.ofText? {} "([a-z0-9])([A-Z])" = some ⟨.parted lowerOrDigitSet [upperSet], []⟩
      ∧ NamedRegex.ofText? {} "([A-Z])([A-Z][a-z])"
        = some ⟨.parted upperSet [upperSet, lowerSet], []⟩
      ∧ NamedRegex.ofText? {} "[^A-Za-z0-9]+" = some ⟨.oneOrMore gapSet, []⟩ := by
  decide +kernel

/-! ### Marks at boundaries -/

/-- A mark behind each character that a word ends with, as `cut` says of it and the text behind. -/
def markWhere (cut : Char → List Char → Bool) : List Char → List Char
  | [] => []
  | c :: text => if cut c text then c :: mark :: markWhere cut text else c :: markWhere cut text

/-- An upper-case letter follows a lower-case letter or a digit. -/
def endsAtCapital (c : Char) (text : List Char) : Bool :=
  (isLower c || isDigit c) && text.head?.any isUpper

/-- An upper-case letter that a lower-case letter follows is behind another. -/
def endsAtAcronym (c : Char) (text : List Char) : Bool :=
  isUpper c && text.head?.any isUpper && text.tail.head?.any isLower

/-- A word ends, and another one begins right behind it. -/
def endsWord (c : Char) (text : List Char) : Bool := endsAtCapital c text || endsAtAcronym c text

/-- What is neither letter nor digit replaced by a mark, however much of it there is. -/
def markGaps : List Char → List Char
  | [] => []
  | c :: text =>
    if isWordChar c then c :: markGaps text
    else mark :: markGaps (text.dropWhile fun d => !isWordChar d)
termination_by text => text.length
decreasing_by
  · simp
  · have hlength := (List.dropWhile_suffix fun d => !isWordChar d : _ <:+ text).length_le
    simp only [List.length_cons]
    omega

/-- No match of the first replacement begins with an upper-case letter. -/
theorem endsAtCapital_of_isUpper {c : Char} (h : isUpper c = true) (text : List Char) :
    endsAtCapital c text = false := by
  have hinner : (isLower c || isDigit c) = false := isInner_eq_false_of_isUpper h
  rw [endsAtCapital, hinner, Bool.false_and]

/-- The mark is no word character. -/
theorem isUpper_mark : isUpper mark = false := rfl

theorem isWordChar_mark : isWordChar mark = false := rfl

theorem endsWord_cons (a b : Char) (rest : List Char) :
    endsWord a (b :: rest) = endsBetween a b rest := by
  rw [endsWord, endsAtCapital, endsAtAcronym, endsBetween]
  rfl

theorem head?_markWhere (cut : Char → List Char → Bool) (text : List Char) :
    (markWhere cut text).head? = text.head? := by
  cases text with
  | nil => rfl
  | cons c text =>
      rw [markWhere]
      split <;> rfl

/-! ### The three replacements as passes -/

open Regex

/-- No match begins inside of another, so that marking goes on behind the first character. -/
theorem pass_parted {first : CharSet} {others : List CharSet} {cut : Char → List Char → Bool}
    (hcut : ∀ c text, cut c text = (first.contains c && fits others text))
    (hfree : ∀ c text, cut c text = true →
      markWhere cut text = text.take others.length ++ markWhere cut (text.drop others.length)) :
    Pass (frontParted first others [mark]) (markWhere cut) where
  of_some := by
    intro text put rest hfront
    cases text with
    | nil => simp [frontParted] at hfront
    | cons c text =>
        simp only [frontParted, ← hcut, Option.ite_none_right_eq_some, Option.some.injEq,
          Prod.mk.injEq] at hfront
        obtain ⟨hc, rfl, rfl⟩ := hfront
        rw [markWhere, if_pos hc, hfree c text hc]
        rfl
  nil := fun _ => rfl
  cons := by
    intro c text hfront
    have hc : ¬cut c text = true := by
      intro hc
      simp [frontParted, ← hcut, hc] at hfront
    rw [markWhere, if_neg hc]

theorem pass_capitals :
    Pass (frontParted lowerOrDigitSet [upperSet] [mark]) (markWhere endsAtCapital) := by
  refine pass_parted ?_ ?_
  · intro c text
    rw [endsAtCapital, contains_lowerOrDigitSet]
    cases text with
    | nil => rfl
    | cons d text => simp [fits, contains_upperSet]
  · intro c text hends
    rw [endsAtCapital, Bool.and_eq_true] at hends
    cases text with
    | nil => simp at hends
    | cons d text =>
        have hupper : isUpper d = true := by simpa using hends.2
        simp [markWhere, endsAtCapital_of_isUpper hupper]

theorem pass_acronyms :
    Pass (frontParted upperSet [upperSet, lowerSet] [mark]) (markWhere endsAtAcronym) := by
  refine pass_parted ?_ ?_
  · intro c text
    rw [endsAtAcronym, contains_upperSet]
    cases text with
    | nil => simp [fits]
    | cons d text =>
        cases text with
        | nil => simp [fits]
        | cons e text => simp [fits, contains_upperSet, contains_lowerSet, Bool.and_assoc]
  · intro c text hends
    rw [endsAtAcronym, Bool.and_eq_true, Bool.and_eq_true] at hends
    obtain ⟨⟨-, hupper⟩, hlower⟩ := hends
    cases text with
    | nil => simp at hupper
    | cons d text =>
        cases text with
        | nil => simp at hlower
        | cons e text =>
            -- the last character taken is lower-case, so no match begins there or just before
            have hlower : isLower e = true := by simpa using hlower
            have he : isUpper e = false := by
              rw [Bool.eq_false_iff, ne_eq, isUpper_iff]
              rw [isLower_iff] at hlower
              omega
            have hinside : endsAtAcronym d (e :: text) = false := by simp [endsAtAcronym, he]
            have hlast : endsAtAcronym e text = false := by simp [endsAtAcronym, he]
            simp [markWhere, hinside, hlast]

theorem pass_gaps : Pass (frontRun gapSet [mark]) markGaps where
  of_some := by
    intro text put rest hfront
    cases text with
    | nil => simp [frontRun] at hfront
    | cons c text =>
        simp only [frontRun, contains_gapSet, Option.ite_none_right_eq_some, Option.some.injEq,
          Prod.mk.injEq] at hfront
        obtain ⟨hc, rfl, rfl⟩ := hfront
        have hset : gapSet.contains = fun d => !isWordChar d := funext contains_gapSet
        rw [markGaps, if_neg (by simpa using hc), hset]
        rfl
  nil := fun _ => by rw [markGaps]
  cons := by
    intro c text hfront
    have hc : isWordChar c = true := by
      simpa [frontRun, contains_gapSet] using hfront
    rw [markGaps, if_pos hc]

/-- **The three replacements are three passes over the text.** -/
theorem wordsByMarks?_eq (text : String) :
    wordsByMarks? text = some ((betweenMarks (markGaps (markWhere endsAtAcronym
      (markWhere endsAtCapital text.toList)))).map String.ofList) := by
  obtain ⟨hcapitals, hacronyms, hgaps⟩ := expressions_read
  simp only [wordsByMarks?, replaceAll?, hcapitals, hacronyms, hgaps, Option.map_some,
    Option.bind_eq_bind, Option.bind_some, Option.pure_def]
  rw [replaceAll_eq (replaces_parted _ _ _) pass_capitals,
    replaceAll_eq (replaces_parted _ _ _) pass_acronyms,
    replaceAll_eq (replaces_oneOrMore _ _) pass_gaps]
  simp only [String.toList_ofList]

/-! ### Both kinds of boundaries at once -/

/-- A mark in front of an upper-case letter is put behind a lower-case letter or a digit, and this
is not where the second replacement looks. -/
theorem endsAtAcronym_markWhere (c : Char) (text : List Char) :
    endsAtAcronym c (markWhere endsAtCapital text) = endsAtAcronym c text := by
  cases text with
  | nil => rfl
  | cons d text =>
      by_cases hd : isUpper d = true
      · simp [markWhere, endsAtCapital_of_isUpper hd, endsAtAcronym, head?_markWhere]
      · simp [endsAtAcronym, head?_markWhere, hd]

theorem markWhere_acronym_capital (text : List Char) :
    markWhere endsAtAcronym (markWhere endsAtCapital text) = markWhere endsWord text := by
  have hmark : ∀ rest, markWhere endsAtAcronym (mark :: rest)
      = mark :: markWhere endsAtAcronym rest := by
    intro rest
    rw [markWhere, if_neg (by simp [endsAtAcronym, isUpper_mark])]
  induction text with
  | nil => rfl
  | cons c text ih =>
      rw [markWhere, markWhere]
      by_cases hcapital : endsAtCapital c text = true
      · have hcut : endsWord c text = true := by rw [endsWord, hcapital, Bool.true_or]
        rw [if_pos hcapital, if_pos hcut, markWhere, if_neg, hmark, ih]
        simp [endsAtAcronym, isUpper_mark]
      · have hcut : endsWord c text = endsAtAcronym c text := by simp [endsWord, hcapital]
        rw [if_neg hcapital, markWhere, endsAtAcronym_markWhere, hcut, ih]

/-! ### What stands between marks -/

theorem betweenMarks_mark (text : List Char) : betweenMarks (mark :: text) = betweenMarks text := by
  simp [betweenMarks, splitOnChar]

theorem betweenMarks_cons_mark {c : Char} (hc : c ≠ mark) (text : List Char) :
    betweenMarks (c :: mark :: text) = [c] :: betweenMarks (mark :: text) := by
  simp [betweenMarks, splitOnChar, hc]

theorem betweenMarks_single {c : Char} (hc : c ≠ mark) : betweenMarks [c] = [[c]] := by
  simp [betweenMarks, splitOnChar, hc]

/-- A character in front of another belongs to the same piece. -/
theorem betweenMarks_cons_cons {c d : Char} (hc : c ≠ mark) (hd : d ≠ mark) (text : List Char) :
    ∃ piece others, betweenMarks (d :: text) = piece :: others
      ∧ betweenMarks (c :: d :: text) = (c :: piece) :: others := by
  cases hsplit : splitOnChar mark text with
  | nil => exact ⟨[d], [], by simp [betweenMarks, splitOnChar, hsplit, hc, hd]⟩
  | cons piece others =>
      refine ⟨d :: piece, others.filter fun piece => !piece.isEmpty, ?_, ?_⟩
      · simp [betweenMarks, splitOnChar, hsplit, hd]
      · simp [betweenMarks, splitOnChar, hsplit, hc, hd]

/-- Where a gap has a mark already, what else there is of it does not matter. -/
theorem betweenMarks_markGaps_dropWhile (text : List Char) :
    betweenMarks (markGaps (text.dropWhile fun d => !isWordChar d))
      = betweenMarks (markGaps text) := by
  cases text with
  | nil => rfl
  | cons c text =>
      by_cases hc : isWordChar c = true
      · simp [hc]
      · rw [List.dropWhile_cons_of_pos (by simp [hc]), markGaps, if_neg hc, betweenMarks_mark]

theorem ne_mark_of_isWordChar {c : Char} (h : isWordChar c = true) : c ≠ mark := by
  rintro rfl
  simp [isWordChar_mark] at h

theorem markGaps_of_isWordChar {c : Char} (h : isWordChar c = true) (text : List Char) :
    markGaps (c :: text) = c :: markGaps text := by
  rw [markGaps, if_pos h]

theorem betweenMarks_markGaps_of_not {c : Char} (h : ¬isWordChar c = true) (text : List Char) :
    betweenMarks (markGaps (c :: text)) = betweenMarks (markGaps text) := by
  rw [markGaps, if_neg h, betweenMarks_mark, betweenMarks_markGaps_dropWhile]

/-- In front of a gap a word ends. -/
theorem betweenMarks_markGaps_before_gap {c d : Char} (hc : isWordChar c = true)
    (hd : ¬isWordChar d = true) (text : List Char) :
    betweenMarks (markGaps (c :: d :: text)) = [c] :: betweenMarks (markGaps (d :: text)) := by
  rw [markGaps_of_isWordChar hc, markGaps, if_neg hd,
    betweenMarks_cons_mark (ne_mark_of_isWordChar hc)]

/-- Only a word character ends a word. -/
theorem endsWord_of_not {c : Char} (h : ¬isWordChar c = true) (text : List Char) :
    endsWord c text = false := by
  simp only [isWordChar, Bool.or_eq_true, not_or, Bool.not_eq_true] at h
  simp [endsWord, endsAtCapital, endsAtAcronym, h]

theorem exists_markWhere_cons (cut : Char → List Char → Bool) (c : Char) (text : List Char) :
    ∃ rest, markWhere cut (c :: text) = c :: rest := by
  rw [markWhere]
  split
  · exact ⟨_, rfl⟩
  · exact ⟨_, rfl⟩

/-- **The pieces of a text with its boundaries and gaps marked are its words.** -/
theorem betweenMarks_eq_wordsOf (text : List Char) :
    betweenMarks (markGaps (markWhere endsWord text)) = wordsOf text := by
  induction text with
  | nil => simp [markWhere, markGaps, betweenMarks, splitOnChar, wordsOf]
  | cons a text ih =>
      by_cases ha : isWordChar a = true
      · have hne : a ≠ mark := ne_mark_of_isWordChar ha
        cases text with
        | nil =>
            have hends : endsWord a [] = false := by simp [endsWord, endsAtCapital, endsAtAcronym]
            rw [markWhere, hends, if_neg (by simp), markWhere, markGaps_of_isWordChar ha, markGaps,
              betweenMarks_single hne]
            simp [wordsOf, ha]
        | cons b rest =>
            obtain ⟨behind, hbehind⟩ := exists_markWhere_cons endsWord b rest
            by_cases hends : endsBetween a b rest = true
            · have hmark : ¬isWordChar mark = true := by simp [isWordChar_mark]
              rw [markWhere, if_pos (by rw [endsWord_cons, hends]),
                betweenMarks_markGaps_before_gap ha hmark, betweenMarks_markGaps_of_not hmark, ih,
                wordsOf_cons_of_ends ha (.inr hends)]
            · rw [markWhere, if_neg (by rwa [endsWord_cons]), hbehind]
              rw [hbehind] at ih
              by_cases hb : isWordChar b = true
              · obtain ⟨piece, others, hpieces, hjoined⟩ :=
                  betweenMarks_cons_cons hne (ne_mark_of_isWordChar hb) (markGaps behind)
                obtain ⟨word, words, hrest, hwords⟩ :=
                  wordsOf_cons_of_goesOn ha hb (by simpa using hends)
                rw [markGaps_of_isWordChar hb, hrest] at ih
                obtain ⟨rfl, rfl⟩ := List.cons.inj (hpieces.symm.trans ih)
                rw [markGaps_of_isWordChar ha, markGaps_of_isWordChar hb, hjoined, hwords]
              · rw [betweenMarks_markGaps_before_gap ha hb, ih,
                  wordsOf_cons_of_ends ha (.inl (by simpa using hb))]
      · have hends : endsWord a text = false := endsWord_of_not ha text
        rw [markWhere, hends, if_neg (by simp), betweenMarks_markGaps_of_not ha, ih,
          wordsOf_cons_of_not (by simpa using ha)]

/-- **The words between marks are the words of the text.** -/
theorem wordsByMarks?_eq_words (text : String) : wordsByMarks? text = some (words text) := by
  rw [wordsByMarks?_eq, markWhere_acronym_capital, betweenMarks_eq_wordsOf, words]

end Text
end ApiTypings
