/-
What a name keeps of its text.

A name has the words of its text in their order, changed in case only, and an underscore in front of
some of them.  A word has no underscore, so each one in a name is one that has been put there, and
without them the name is the words in a row.  What is lost is case, and what belongs to no word.
-/
import Mathlib
import ApiTypings.Proofs.MarkedWords

namespace ApiTypings.Text

/-- A word with its first letter in upper case and the others in lower case. -/
def titled : List Char → List Char
  | [] => []
  | c :: rest => toUpper c :: rest.map toLower

/-- Words in a row, with an underscore before each one behind the first that begins with a
digit. -/
def underscored : List (List Char) → List Char
  | [] => []
  | word :: words =>
    word ++ words.flatMap fun other => if other.head?.any isDigit then '_' :: other else other

theorem isDigit_toUpper (c : Char) : isDigit (toUpper c) = isDigit c := by
  rw [Bool.eq_iff_iff, isDigit_iff, isDigit_iff, toNat_toUpper]
  split
  · have := isLower_iff.mp ‹_›
    omega
  · rfl

theorem capitalized_true (word : List Char) : capitalized true word = titled word := by
  cases word with
  | nil => rfl
  | cons c rest => simp [capitalized, titled]

theorem capitalized_false (word : List Char) :
    capitalized false word
      = if (titled word).head?.any isDigit then '_' :: titled word else titled word := by
  cases word with
  | nil => rfl
  | cons c rest =>
      by_cases hdigit : isDigit c = true
      · simp [capitalized, titled, hdigit, toUpper_of_isDigit]
      · simp [capitalized, titled, isDigit_toUpper, hdigit]

theorem toList_pascalCase (text : String) :
    (pascalCase text).toList = underscored ((wordsOf text.toList).map titled) := by
  rw [pascalCase, String.toList_ofList]
  cases wordsOf text.toList with
  | nil => rfl
  | cons word words =>
      rw [joinCapitalized, List.map_cons, underscored, capitalized_true, List.flatMap_map]
      exact congrArg (titled word ++ ·) (List.flatMap_congr fun other _ => capitalized_false other)

theorem map_toLower_titled (word : List Char) : (titled word).map toLower = word.map toLower := by
  cases word with
  | nil => rfl
  | cons c rest => simp [titled, toLower_toUpper, toLower_toLower]

theorem ne_underscore_of_mem_titled {word : List Char} (h : IsWord word) :
    ∀ c ∈ titled word, c ≠ '_' := by
  obtain ⟨first, rest, rfl⟩ := List.exists_cons_of_ne_nil h.1
  have hchars : ∀ c ∈ titled (first :: rest), isWordChar c = true := by
    obtain ⟨hfirst, hrest⟩ := List.forall_mem_cons.mp h.2
    refine List.forall_mem_cons.mpr ⟨isWordChar_toUpper hfirst, ?_⟩
    exact List.forall_mem_map.mpr fun c hc => isWordChar_toLower (hrest c hc)
  rintro c hc rfl
  exact absurd (hchars _ hc) (by decide)

/-- Without the underscores put in front, nothing but the words is left. -/
theorem filter_underscored {words : List (List Char)} (h : ∀ word ∈ words, ∀ c ∈ word, c ≠ '_') :
    (underscored words).filter (· ≠ '_') = words.flatten := by
  have hword : ∀ word ∈ words, word.filter (· ≠ '_') = word := by
    intro word hword
    exact List.filter_eq_self.mpr fun c hc => by simpa using h word hword c hc
  have hbehind : ∀ word ∈ words,
      (if word.head?.any isDigit then '_' :: word else word).filter (· ≠ '_') = word := by
    intro word hmem
    split
    · rw [List.filter_cons_of_neg (by simp), hword word hmem]
    · exact hword word hmem
  cases words with
  | nil => rfl
  | cons first words =>
      rw [underscored, List.filter_append, hword first (by simp), List.filter_flatMap,
        List.flatten_cons]
      rw [List.flatMap_congr fun word hmem => hbehind word (List.mem_cons_of_mem _ hmem)]
      simp

/-- **A name has the word characters of its text up to case.** -/
theorem content_pascalCase (text : String) :
    ((pascalCase text).toList.filter (· ≠ '_')).map toLower = (kept text.toList).map toLower := by
  have hwords : ∀ word ∈ (wordsOf text.toList).map titled, ∀ c ∈ word, c ≠ '_' := by
    refine List.forall_mem_map.mpr fun word hword => ?_
    exact ne_underscore_of_mem_titled (isWord_of_mem_wordsOf _ word hword)
  rw [toList_pascalCase, filter_underscored hwords, kept, ← flatten_wordsOf, List.map_flatten,
    List.map_flatten, List.map_map]
  exact congrArg List.flatten (List.map_congr_left fun word _ => map_toLower_titled word)

/-- **What words and names are.**  The words of a text, as they come from three replacements, hold
its word characters in their order, and end where the characters around a place say so.  A name has
letters, digits and underscores only: it is the words, each with a capital in front, and an
underscore stands before a word exactly if it begins with a digit and is not the first.  Without
underscores and case it is the word characters of the text, so texts of one name have the same. -/
theorem splits_words_and_name (text : String) :
    wordsByMarks? text = some (words text)
      ∧ Splits text.toList ((words text).map String.toList)
      ∧ (∀ c ∈ (pascalCase text).toList, isWordChar c = true ∨ c = '_')
      ∧ (pascalCase text).toList = underscored ((words text).map fun word => titled word.toList)
      ∧ ((pascalCase text).toList.filter (· ≠ '_')).map toLower = (kept text.toList).map toLower
      ∧ ∀ other, pascalCase text = pascalCase other →
        (kept text.toList).map toLower = (kept other.toList).map toLower := by
  have hwords : (words text).map String.toList = wordsOf text.toList := by
    rw [words, List.map_map, Function.comp_def]
    simp
  refine ⟨wordsByMarks?_eq_words text, ?_, mem_pascalCase text, ?_, content_pascalCase text, ?_⟩
  · rw [hwords]
    exact splits_wordsOf text.toList
  · rw [toList_pascalCase, ← hwords, List.map_map]
    rfl
  · intro other hname
    rw [← content_pascalCase text, ← content_pascalCase other, hname]

/-- A text with an acronym in front of a word, a gap and a word that begins with a digit, and
another text of the same name. -/
theorem splits_words_and_name_acronym :
    let text := "HTTPServer-v2 2fa"
    let other := "http_server.V2 2fa"
    let before := "HTT".toList
    let after := "erver-v2 2fa".toList
    (text.toList = before ++ 'P' :: [] ++ 'S' :: after ∧ isWordChar 'P' = true
        ∧ isWordChar 'S' = true ∧ (∀ c ∈ ([] : List Char), isWordChar c = false)
        ∧ pascalCase text = pascalCase other)
      ∧ wordsByMarks? text = some (words text)
      ∧ (wordNumber ((words text).map String.toList) (kept before).length
          ≠ wordNumber ((words text).map String.toList) ((kept before).length + 1)
        ↔ Parts 'P' [] 'S' after)
      ∧ (kept text.toList).map toLower = (kept other.toList).map toLower
      ∧ pascalCase text = "HttpServerV2_2fa" := by
  intro text other before after
  have htext : text.toList = before ++ 'P' :: [] ++ 'S' :: after := by decide +kernel
  have hp : isWordChar 'P' = true := rfl
  have hs : isWordChar 'S' = true := rfl
  have hgap : ∀ c ∈ ([] : List Char), isWordChar c = false := nofun
  have hname : pascalCase text = pascalCase other := by decide +kernel
  obtain ⟨hmarks, hsplits, -, -, -, hcontent⟩ := splits_words_and_name text
  have hnumber := hsplits.number_ne_iff before 'P' [] 'S' after htext hp hs hgap
  exact ⟨⟨htext, hp, hs, hgap, hname⟩, hmarks, hnumber, hcontent other hname, by decide +kernel⟩

end ApiTypings.Text
