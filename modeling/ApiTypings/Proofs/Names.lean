/-
The characters of names.

Names in generated files are over the ASCII letters, the digits, `_` and `$`.  Identifiers are
by definition, and names made of words are because a word has nothing but letters and digits.
-/
import Mathlib
import ApiTypings.Text.Word

namespace ApiTypings.Text

/-- A character of names. -/
def isNameChar (c : Char) : Bool := isIdentifierStart c || isDigit c

/-- Text over the ASCII letters, the digits, `_` and `$`. -/
def IsName (text : String) : Prop := ∀ c ∈ text.toList, isNameChar c = true

theorem isName_of_isIdentifier {name : String} (h : isIdentifier name = true) : IsName name := by
  intro c hc
  unfold isIdentifier at h
  split at h
  · cases h
  · rename_i first rest hname
    rw [hname] at hc
    simp only [Bool.and_eq_true, List.all_eq_true, Bool.or_eq_true] at h
    rcases List.mem_cons.mp hc with rfl | hc
    · simp [isNameChar, h.1]
    · simpa [isNameChar] using h.2 c hc

theorem isNameChar_of_isWordChar {c : Char} (h : isWordChar c = true) : isNameChar c = true := by
  simp only [isWordChar, Bool.or_eq_true] at h
  simp only [isNameChar, isIdentifierStart, Bool.or_eq_true]
  tauto

theorem isLower_iff {c : Char} : isLower c = true ↔ 97 ≤ c.toNat ∧ c.toNat ≤ 122 := by
  simp only [isLower, Bool.and_eq_true, decide_eq_true_eq, Char.le_def, UInt32.le_iff_toNat_le]
  exact Iff.rfl

theorem isUpper_iff {c : Char} : isUpper c = true ↔ 65 ≤ c.toNat ∧ c.toNat ≤ 90 := by
  simp only [isUpper, Bool.and_eq_true, decide_eq_true_eq, Char.le_def, UInt32.le_iff_toNat_le]
  exact Iff.rfl

theorem isDigit_iff {c : Char} : isDigit c = true ↔ 48 ≤ c.toNat ∧ c.toNat ≤ 57 := by
  simp only [isDigit, Bool.and_eq_true, decide_eq_true_eq, Char.le_def, UInt32.le_iff_toNat_le]
  exact Iff.rfl

theorem toNat_toUpper (c : Char) :
    (toUpper c).toNat = if isLower c then c.toNat - 32 else c.toNat := by
  by_cases hc : isLower c = true
  · have hrange := isLower_iff.mp hc
    rw [toUpper, if_pos hc, if_pos hc, Char.toNat_ofNat, if_pos (by left; omega)]
  · rw [toUpper, if_neg hc, if_neg hc]

theorem toNat_toLower (c : Char) :
    (toLower c).toNat = if isUpper c then c.toNat + 32 else c.toNat := by
  by_cases hc : isUpper c = true
  · have hrange := isUpper_iff.mp hc
    rw [toLower, if_pos hc, if_pos hc, Char.toNat_ofNat, if_pos (by left; omega)]
  · rw [toLower, if_neg hc, if_neg hc]

/-! ### Words

A change of case keeps a letter a letter, so that the words of a text stay words when they are
capitalised.
-/

theorem isWordChar_toUpper {c : Char} (h : isWordChar c = true) :
    isWordChar (toUpper c) = true := by
  by_cases hc : isLower c = true
  · have hrange := isLower_iff.mp hc
    have hupper : isUpper (toUpper c) = true := by
      rw [isUpper_iff, toNat_toUpper, if_pos hc]
      omega
    simp [isWordChar, hupper]
  · rwa [toUpper, if_neg hc]

theorem isWordChar_toLower {c : Char} (h : isWordChar c = true) :
    isWordChar (toLower c) = true := by
  by_cases hc : isUpper c = true
  · have hrange := isUpper_iff.mp hc
    have hlower : isLower (toLower c) = true := by
      rw [isLower_iff, toNat_toLower, if_pos hc]
      omega
    simp [isWordChar, hlower]
  · rwa [toLower, if_neg hc]

/-- The words of a text hold its word characters, in their order. -/
theorem flatten_wordsOf (text : List Char) :
    (wordsOf text).flatten = text.filter isWordChar := by
  induction text using wordsOf.induct with
  | case1 => rfl
  | case2 a rest ha ih =>
      rw [wordsOf.eq_def]
      simp only [if_pos ha]
      rw [ih, List.filter_cons_of_neg (by simpa using ha)]
  | case3 a ha =>
      have ha : isWordChar a = true := by simpa using ha
      simp [wordsOf, ha]
  | case4 a ha b rest hcut ih =>
      have ha : isWordChar a = true := by simpa using ha
      rw [wordsOf, if_neg (by simp [ha])]
      simp only [if_pos hcut]
      rw [List.flatten_cons, ih, List.filter_cons_of_pos ha]
      rfl
  | case5 a ha b rest hgo word words hwords ih =>
      have ha : isWordChar a = true := by simpa using ha
      rw [wordsOf, if_neg (by simp [ha])]
      simp only [if_neg hgo, hwords]
      rw [List.filter_cons_of_pos ha, ← ih, hwords]
      rfl
  | case6 a ha b rest hgo hwords ih =>
      have ha : isWordChar a = true := by simpa using ha
      rw [wordsOf, if_neg (by simp [ha])]
      simp only [if_neg hgo, hwords]
      rw [List.filter_cons_of_pos ha, ← ih, hwords]
      rfl

theorem isWordChar_of_mem_wordsOf (text : List Char) :
    ∀ word ∈ wordsOf text, ∀ c ∈ word, isWordChar c = true := by
  intro word hword c hc
  have hflat : c ∈ (wordsOf text).flatten := List.mem_flatten.mpr ⟨word, hword, hc⟩
  rw [flatten_wordsOf] at hflat
  exact List.of_mem_filter hflat

theorem mem_capitalized {word : List Char} (h : ∀ c ∈ word, isWordChar c = true)
    (isFirst : Bool) : ∀ c ∈ capitalized isFirst word, isWordChar c = true ∨ c = '_' := by
  cases word with
  | nil => exact nofun
  | cons first rest =>
      obtain ⟨hfirst, hrest⟩ := List.forall_mem_cons.mp h
      refine List.forall_mem_append.mpr ⟨?_, ?_⟩
      · split
        · exact List.forall_mem_cons.mpr ⟨.inr rfl, List.forall_mem_singleton.mpr (.inl hfirst)⟩
        · exact List.forall_mem_singleton.mpr (.inl (isWordChar_toUpper hfirst))
      · exact List.forall_mem_map.mpr fun c hc => .inl (isWordChar_toLower (hrest c hc))

/-- A name made of words has letters, digits and underscores only. -/
theorem mem_pascalCase (text : String) :
    ∀ c ∈ (pascalCase text).toList, isWordChar c = true ∨ c = '_' := by
  have hwords := isWordChar_of_mem_wordsOf text.toList
  unfold pascalCase
  rw [String.toList_ofList]
  generalize wordsOf text.toList = words at hwords
  cases words with
  | nil => exact nofun
  | cons word words =>
      obtain ⟨hword, hrest⟩ := List.forall_mem_cons.mp hwords
      refine List.forall_mem_append.mpr ⟨mem_capitalized hword true, ?_⟩
      refine List.forall_mem_flatMap.mpr fun other hother => ?_
      exact mem_capitalized (hrest other hother) false

/-- **A name made of words is a name.** -/
theorem isName_pascalCase (text : String) : IsName (pascalCase text) := by
  intro c hc
  rcases mem_pascalCase text c hc with hword | rfl
  · exact isNameChar_of_isWordChar hword
  · decide

end ApiTypings.Text
