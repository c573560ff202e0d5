/-
Names made of the words of a text.

A name begins each word with a capital, or with an underscore if the word begins with a digit and
is not the first, and everything else in it is lower case.  So the name shows where its words
begin, and two texts give one name exactly if they have the same words in whatever case: what
is lost is the case and what stands between the words.

The first character of a name is that of the first word.  A digit there is kept as it is, and a
text without words gives an empty name, so a name is not always an identifier.
-/
import Mathlib
import ApiTypings.Proofs.Names
import ApiTypings.Proofs.Separated
import ApiTypings.TypeExpr.OfSchema

namespace ApiTypings.Text

/-! ### The case of a character -/

theorem isDigit_toLower (c : Char) : isDigit (toLower c) = isDigit c := by
  rw [Bool.eq_iff_iff, isDigit_iff, isDigit_iff, toNat_toLower]
  split
  · have := isUpper_iff.mp ‹_›
    omega
  · rfl

theorem toUpper_of_isDigit {c : Char} (h : isDigit c = true) : toUpper c = c := by
  have hrange := isDigit_iff.mp h
  rw [toUpper, if_neg]
  rw [isLower_iff]
  omega

theorem isUpper_toLower (c : Char) : isUpper (toLower c) = false := by
  rw [Bool.eq_false_iff, ne_eq, isUpper_iff, toNat_toLower]
  split
  · have := isUpper_iff.mp ‹_›
    omega
  · rwa [← isUpper_iff]

theorem toLower_toLower (c : Char) : toLower (toLower c) = toLower c := by
  rw [toLower, if_neg (by simp [isUpper_toLower])]

theorem toUpper_toLower (c : Char) : toUpper (toLower c) = toUpper c := by
  refine Char.toNat_inj.mp ?_
  by_cases hc : isUpper c = true
  · have hrange := isUpper_iff.mp hc
    have hlower : isLower (toLower c) = true := by
      rw [isLower_iff, toNat_toLower, if_pos hc]
      omega
    have hnot : ¬isLower c = true := by
      rw [isLower_iff]
      omega
    rw [toNat_toUpper, if_pos hlower, toNat_toLower, if_pos hc, toNat_toUpper, if_neg hnot]
    omega
  · rw [show toLower c = c by rw [toLower, if_neg hc]]

theorem toLower_toUpper (c : Char) : toLower (toUpper c) = toLower c := by
  refine Char.toNat_inj.mp ?_
  by_cases hc : isLower c = true
  · have hrange := isLower_iff.mp hc
    have hupper : isUpper (toUpper c) = true := by
      rw [isUpper_iff, toNat_toUpper, if_pos hc]
      omega
    have hnot : ¬isUpper c = true := by
      rw [isUpper_iff]
      omega
    rw [toNat_toLower, if_pos hupper, toNat_toUpper, if_pos hc, toNat_toLower, if_neg hnot]
    omega
  · rw [show toUpper c = c by rw [toUpper, if_neg hc]]

/-- A letter is a capital once it is made one, and a digit stays a digit. -/
theorem isUpper_toUpper {c : Char} (h : isWordChar c = true) :
    isUpper (toUpper c) = !isDigit c := by
  have hchar : (isUpper c = true ∨ isLower c = true) ∨ isDigit c = true := by
    simpa [isWordChar] using h
  rw [Bool.eq_iff_iff, Bool.not_eq_true', Bool.eq_false_iff, ne_eq, isUpper_iff, isDigit_iff,
    toNat_toUpper]
  rw [isUpper_iff, isLower_iff, isDigit_iff] at hchar
  split
  · have := isLower_iff.mp ‹_›
    omega
  · have := mt isLower_iff.mpr ‹_›
    omega

/-! ### Words -/

/-- Word characters, and at least one. -/
def IsWord (word : List Char) : Prop := word ≠ [] ∧ ∀ c ∈ word, isWordChar c = true

theorem ne_nil_of_mem_wordsOf (text : List Char) : ∀ word ∈ wordsOf text, word ≠ [] := by
  induction text using wordsOf.induct with
  | case1 =>
      intro word hword
      cases hword
  | case2 a rest ha ih =>
      rw [wordsOf.eq_def]
      simp only [if_pos ha]
      exact ih
  | case3 a ha => simp [wordsOf, ha]
  | case4 a ha b rest hcut ih =>
      rw [wordsOf, if_neg ha]
      simp only [if_pos hcut]
      exact List.forall_mem_cons.mpr ⟨by simp, ih⟩
  | case5 a ha b rest hgo word words hwords ih =>
      rw [wordsOf, if_neg ha]
      simp only [if_neg hgo, hwords] at ih ⊢
      exact List.forall_mem_cons.mpr ⟨by simp, (List.forall_mem_cons.mp ih).2⟩
  | case6 a ha b rest hgo hwords ih =>
      rw [wordsOf, if_neg ha]
      simp only [if_neg hgo, hwords]
      simp

theorem isWord_of_mem_wordsOf (text : List Char) : ∀ word ∈ wordsOf text, IsWord word := by
  intro word hword
  exact ⟨ne_nil_of_mem_wordsOf text word hword, isWordChar_of_mem_wordsOf text word hword⟩

/-! ### Where the words of a name begin

Behind its first character a word is in lower case, so the next capital or underscore begins
the next word.
-/

/-- A character inside of a word of a name. -/
def isInner (c : Char) : Bool := isLower c || isDigit c

theorem isInner_toLower {c : Char} (h : isWordChar c = true) : isInner (toLower c) = true := by
  have hword := isWordChar_toLower h
  rw [isWordChar, isUpper_toLower, Bool.false_or] at hword
  exact hword

theorem isInner_eq_false_of_isUpper {c : Char} (h : isUpper c = true) : isInner c = false := by
  have hrange := isUpper_iff.mp h
  rw [isInner, Bool.or_eq_false_iff, Bool.eq_false_iff, Bool.eq_false_iff, ne_eq, ne_eq,
    isLower_iff, isDigit_iff]
  omega

theorem capitalized_ne_nil {isFirst : Bool} {word : List Char} (h : IsWord word) :
    capitalized isFirst word ≠ [] := by
  obtain ⟨c, rest, rfl⟩ := List.exists_cons_of_ne_nil h.1
  rw [capitalized]
  split <;> simp

/-- A word behind the first begins with a capital or an underscore. -/
theorem isInner_head_capitalized {word : List Char} (h : IsWord word) (rest : List Char) :
    ∀ c ∈ (capitalized false word ++ rest).head?, isInner c = false := by
  obtain ⟨first, tail, rfl⟩ := List.exists_cons_of_ne_nil h.1
  have hfirst : isWordChar first = true := h.2 first (by simp)
  intro c hc
  rw [capitalized] at hc
  by_cases hdigit : isDigit first = true
  · obtain rfl : '_' = c := by simpa [hdigit] using hc
    decide
  · obtain rfl : toUpper first = c := by simpa [hdigit] using hc
    exact isInner_eq_false_of_isUpper (by simp [isUpper_toUpper hfirst, hdigit])

/-- Words of a name, of which the first is that of the name or not. -/
def joinFrom (isFirst : Bool) : List (List Char) → List Char
  | [] => []
  | word :: words => capitalized isFirst word ++ joinFrom false words

theorem joinFrom_false (words : List (List Char)) :
    joinFrom false words = words.flatMap (capitalized false) := by
  induction words with
  | nil => rfl
  | cons word words ih => rw [joinFrom, ih, List.flatMap_cons]

theorem joinCapitalized_eq (words : List (List Char)) :
    joinCapitalized words = joinFrom true words := by
  cases words with
  | nil => rfl
  | cons word words => rw [joinCapitalized, joinFrom, joinFrom_false]

theorem isInner_head_joinFrom {words : List (List Char)} (h : ∀ word ∈ words, IsWord word) :
    ∀ c ∈ (joinFrom false words).head?, isInner c = false := by
  cases words with
  | nil => exact nofun
  | cons word words => exact isInner_head_capitalized (h word (by simp)) _

/-- How a word begins in a name tells its first character up to case. -/
theorem capitalized_cons_unique {isFirst : Bool} {c d : Char} {a b x y : List Char}
    (hc : isWordChar c = true) (hd : isWordChar d = true)
    (h : capitalized isFirst (c :: a) ++ x = capitalized isFirst (d :: b) ++ y) :
    toLower c = toLower d ∧ a.map toLower ++ x = b.map toLower ++ y := by
  have hmark : ∀ {c : Char}, isWordChar c = true → isDigit c = false → toUpper c ≠ '_' := by
    intro c hc hdigit heq
    have hupper : isUpper (toUpper c) = true := by rw [isUpper_toUpper hc, hdigit]; rfl
    rw [heq] at hupper
    exact absurd hupper (by decide)
  have hcase : ∀ {c d : Char}, toUpper c = toUpper d → toLower c = toLower d := by
    intro c d heq
    rw [← toLower_toUpper c, heq, toLower_toUpper]
  simp only [capitalized] at h
  by_cases hcd : (!isFirst && isDigit c) = true
  · by_cases hdd : (!isFirst && isDigit d) = true
    · simp only [if_pos hcd, if_pos hdd, List.cons_append, List.nil_append, List.cons.injEq,
        true_and] at h
      exact ⟨by rw [h.1], h.2⟩
    · simp only [if_pos hcd, if_neg hdd, List.cons_append, List.nil_append, List.cons.injEq] at h
      have hdigit : isDigit d = false := by simp_all
      exact absurd h.1.symm (hmark hd hdigit)
  · by_cases hdd : (!isFirst && isDigit d) = true
    · simp only [if_neg hcd, if_pos hdd, List.cons_append, List.nil_append, List.cons.injEq] at h
      have hdigit : isDigit c = false := by simp_all
      exact absurd h.1 (hmark hc hdigit)
    · simp only [if_neg hcd, if_neg hdd, List.cons_append, List.nil_append, List.cons.injEq] at h
      exact ⟨hcase h.1, h.2⟩

/-- A word in a name is fixed up to case, and so is what follows it. -/
theorem capitalized_unique {isFirst : Bool} {a b x y : List Char} (ha : IsWord a) (hb : IsWord b)
    (hx : ∀ c ∈ x.head?, isInner c = false) (hy : ∀ c ∈ y.head?, isInner c = false)
    (h : capitalized isFirst a ++ x = capitalized isFirst b ++ y) :
    a.map toLower = b.map toLower ∧ x = y := by
  obtain ⟨c, a, rfl⟩ := List.exists_cons_of_ne_nil ha.1
  obtain ⟨d, b, rfl⟩ := List.exists_cons_of_ne_nil hb.1
  have hinner : ∀ {e : Char} {word : List Char}, IsWord (e :: word) →
      ∀ c ∈ word.map toLower, isInner c = true := by
    intro e word hword
    refine List.forall_mem_map.mpr fun c hc => ?_
    exact isInner_toLower (hword.2 c (List.mem_cons_of_mem _ hc))
  obtain ⟨hfirst, hrest⟩ := capitalized_cons_unique (ha.2 c (by simp)) (hb.2 d (by simp)) h
  obtain ⟨htail, hxy⟩ := span_unique (hinner ha) (hinner hb) hx hy hrest
  exact ⟨by rw [List.map_cons, List.map_cons, hfirst, htail], hxy⟩

/-- The words of a name are fixed up to case. -/
theorem joinFrom_unique {isFirst : Bool} {words others : List (List Char)}
    (hwords : ∀ word ∈ words, IsWord word) (hothers : ∀ word ∈ others, IsWord word)
    (h : joinFrom isFirst words = joinFrom isFirst others) :
    words.map (List.map toLower) = others.map (List.map toLower) := by
  induction words generalizing isFirst others with
  | nil =>
      cases others with
      | nil => rfl
      | cons other others =>
          have hnil := (List.append_eq_nil_iff.mp h.symm).1
          exact absurd hnil (capitalized_ne_nil (hothers other (by simp)))
  | cons word words ih =>
      cases others with
      | nil =>
          have hnil := (List.append_eq_nil_iff.mp h).1
          exact absurd hnil (capitalized_ne_nil (hwords word (by simp)))
      | cons other others =>
          have htail := fun w hw => hwords w (List.mem_cons_of_mem _ hw)
          have hothers' := fun w hw => hothers w (List.mem_cons_of_mem _ hw)
          obtain ⟨hword, hrest⟩ := capitalized_unique (hwords word (by simp))
            (hothers other (by simp)) (isInner_head_joinFrom htail)
            (isInner_head_joinFrom hothers') h
          rw [List.map_cons, List.map_cons, hword, ih htail hothers' hrest]

/-! ### Texts with one name -/

/-- The words of a text in lower case. -/
def foldedWords (text : String) : List (List Char) :=
  (wordsOf text.toList).map (List.map toLower)

/-- The texts have the same words in the same order, in whatever case. -/
def SameWords (a b : String) : Prop := foldedWords a = foldedWords b

/-- The name of a word does not depend on its case. -/
theorem capitalized_map_toLower (isFirst : Bool) (word : List Char) :
    capitalized isFirst (word.map toLower) = capitalized isFirst word := by
  cases word with
  | nil => rfl
  | cons c word =>
      have htail : (word.map toLower).map toLower = word.map toLower := by
        simp [Function.comp_def, toLower_toLower]
      rw [List.map_cons, capitalized, capitalized, htail, isDigit_toLower, toUpper_toLower]
      by_cases hdigit : (!isFirst && isDigit c) = true
      · have hlower : toLower c = c := by
          have hrange := isDigit_iff.mp (Bool.and_eq_true_iff.mp hdigit).2
          rw [toLower, if_neg]
          rw [isUpper_iff]
          omega
        rw [if_pos hdigit, if_pos hdigit, hlower]
      · rw [if_neg hdigit, if_neg hdigit]

theorem joinFrom_map_toLower (isFirst : Bool) (words : List (List Char)) :
    joinFrom isFirst (words.map (List.map toLower)) = joinFrom isFirst words := by
  induction words generalizing isFirst with
  | nil => rfl
  | cons word words ih => rw [List.map_cons, joinFrom, joinFrom, capitalized_map_toLower, ih]

/-- **Two texts give one name exactly if they have the same words up to case.** -/
theorem pascalCase_eq_iff {a b : String} : pascalCase a = pascalCase b ↔ SameWords a b := by
  have hname : ∀ text : String,
      pascalCase text = String.ofList (joinFrom true (foldedWords text)) := by
    intro text
    rw [pascalCase, joinCapitalized_eq, foldedWords, joinFrom_map_toLower]
  constructor
  · intro h
    rw [pascalCase, pascalCase, String.ofList_inj, joinCapitalized_eq, joinCapitalized_eq] at h
    exact joinFrom_unique (isWord_of_mem_wordsOf _) (isWord_of_mem_wordsOf _) h
  · intro h
    rw [hname, hname, h]

/-! ### Names as identifiers -/

/-- A name begins with the first word character of its text, as a capital if it is a letter. -/
theorem head?_joinCapitalized (text : List Char) :
    (joinCapitalized (wordsOf text)).head? = (text.find? isWordChar).map toUpper := by
  have hwords := isWord_of_mem_wordsOf text
  rw [← List.head?_filter, ← flatten_wordsOf]
  generalize wordsOf text = words at hwords
  cases words with
  | nil => rfl
  | cons word words =>
      obtain ⟨c, rest, rfl⟩ := List.exists_cons_of_ne_nil (hwords word (by simp)).1
      simp [joinCapitalized, capitalized]

/-- What a word begins with may begin an identifier, unless it is a digit. -/
theorem isIdentifierStart_toUpper {c : Char} (h : isWordChar c = true) :
    isIdentifierStart (toUpper c) = !isDigit c := by
  by_cases hdigit : isDigit c = true
  · have hrange := isDigit_iff.mp hdigit
    have hlower : ¬isLower c = true := by
      rw [isLower_iff]
      omega
    have hupper : ¬isUpper c = true := by
      rw [isUpper_iff]
      omega
    have hmark : c ≠ '_' ∧ c ≠ '$' := by
      constructor <;> rintro rfl <;> exact absurd hdigit (by decide)
    simp [toUpper, isIdentifierStart, hlower, hupper, hdigit, hmark]
  · have hupper : isUpper (toUpper c) = true := by simp [isUpper_toUpper h, hdigit]
    simp [isIdentifierStart, hupper, hdigit]

/-- A name is an identifier exactly if the first word character of its text is a letter. -/
theorem isIdentifier_pascalCase_iff {text : String} :
    isIdentifier (pascalCase text) = true
      ↔ ∃ c ∈ text.toList.find? isWordChar, isDigit c = false := by
  have hname := isName_pascalCase text
  have hhead := head?_joinCapitalized text.toList
  rw [IsName, pascalCase, String.toList_ofList] at hname
  rw [isIdentifier, pascalCase, String.toList_ofList]
  cases hfound : text.toList.find? isWordChar with
  | none =>
      rw [hfound, Option.map_none, List.head?_eq_none_iff] at hhead
      simp [hhead]
  | some c =>
      have hc : isWordChar c = true := List.find?_some hfound
      rw [hfound, Option.map_some] at hhead
      obtain ⟨rest, hrest⟩ := List.head?_eq_some_iff.mp hhead
      rw [hrest] at hname
      have htail : (rest.all fun d => isIdentifierStart d || isDigit d) = true :=
        List.all_eq_true.mpr (List.forall_mem_cons.mp hname).2
      simp [hrest, htail, isIdentifierStart_toUpper hc]

/-- How a name begins: with the first letter or digit of its text.  It is empty if there is none, and
a digit stays in front as it is. -/
structure Begins (text : List Char) (name : String) : Prop where
  empty : name = "" ↔ ∀ c ∈ text, isWordChar c = false
  digit : ∀ c ∈ text.find? isWordChar, isDigit c = true → name.toList.head? = some c
  letter : ∀ c ∈ text.find? isWordChar, isDigit c = false → name.toList.head? = some (toUpper c)

theorem begins_pascalCase (text : String) : Begins text.toList (pascalCase text) := by
  have hhead : (pascalCase text).toList.head? = (text.toList.find? isWordChar).map toUpper := by
    rw [pascalCase, String.toList_ofList, head?_joinCapitalized]
  refine ⟨?_, fun c hc hdigit => ?_, fun c hc _ => ?_⟩
  · rw [← String.toList_eq_nil_iff, ← List.head?_eq_none_iff, hhead, Option.map_eq_none_iff,
      List.find?_eq_none]
    simp
  · rw [hhead, Option.mem_def.mp hc, Option.map_some, toUpper_of_isDigit hdigit]
  · rw [hhead, Option.mem_def.mp hc, Option.map_some]

/-- **When the names of components and references are identifiers.**  They have letters, digits
and underscores only, so what is asked of an identifier beyond that is asked of the first
character: the text, the key of a component or the last segment of a reference, has a letter
before any digit.  A text without either has no name, and a digit in front stays there. -/
theorem isIdentifier_names (key reference : String) :
    (∀ name ∈ [pascalCase key, referenceName reference], ∀ c ∈ name.toList,
        isWordChar c = true ∨ c = '_')
      ∧ (isIdentifier (pascalCase key) = true
        ↔ ∃ c ∈ key.toList.find? isWordChar, isDigit c = false)
      ∧ (isIdentifier (referenceName reference) = true
        ↔ ∃ c ∈ (Json.unescapeSegment (lastSegment reference)).find? isWordChar,
            isDigit c = false)
      ∧ Begins key.toList (pascalCase key)
      ∧ Begins (Json.unescapeSegment (lastSegment reference)) (referenceName reference) := by
  refine ⟨?letters, isIdentifier_pascalCase_iff, ?reference, begins_pascalCase key, ?begins⟩
  case begins =>
    have hname :=
      begins_pascalCase (String.ofList (Json.unescapeSegment (lastSegment reference)))
    rwa [String.toList_ofList] at hname
  case letters =>
    simp only [List.forall_mem_cons]
    exact ⟨mem_pascalCase key, mem_pascalCase _, nofun⟩
  case reference => rw [referenceName, isIdentifier_pascalCase_iff, String.toList_ofList]

/-- A key that begins with a digit, a key without words, and a reference to a component whose key
is a number. -/
theorem isIdentifier_names_digit :
    pascalCase "2fa_settings" = "2faSettings" ∧ isIdentifier "2faSettings" = false
      ∧ pascalCase "---" = "" ∧ isIdentifier "" = false
      ∧ referenceName "#/components/schemas/404" = "404" ∧ isIdentifier "404" = false := by
  decide +kernel

end ApiTypings.Text
