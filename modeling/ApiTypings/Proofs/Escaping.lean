/-
Text of the document stays where it is written.

There are three escapes: for strings, for templates and for comments.  Each has the lexer in
the same place after the text as before it, and nowhere else on the way.  A template is left
where a brace follows a dollar sign, and a comment where a slash follows a star, so the mode
behind the last character counts: it tells what the next one may not be.

In code there are names and numbers, which the lexer passes over, and the punctuation of
JSON.
-/
import Mathlib
import ApiTypings.Proofs.JsonText
import ApiTypings.Proofs.Lexer
import ApiTypings.SourceFile

namespace ApiTypings

namespace Lexer

variable {keep : State → Bool} {stack : List Opener}

/-- A text whose characters leave the lexer where it is. -/
theorem scanWhile_stays {state : State} {text : List Char} (hkeep : keep state = true)
    (h : ∀ c ∈ text, step state c = some state) : scanWhile keep state text = some state := by
  induction text with
  | nil => rfl
  | cons c text ih =>
      obtain ⟨hc, htext⟩ := List.forall_mem_cons.mp h
      rw [scanWhile]
      simp only [hc, if_pos hkeep]
      exact ih htext

theorem scanWhile_flatMap {state : State} {text : List Char} {spell : Char → List Char}
    (h : ∀ c ∈ text, scanWhile keep state (spell c) = some state) :
    scanWhile keep state (text.flatMap spell) = some state := by
  induction text with
  | nil => rfl
  | cons c text ih =>
      obtain ⟨hc, htext⟩ := List.forall_mem_cons.mp h
      rw [List.flatMap_cons]
      exact scanWhile_append hc (ih htext)

theorem scanWhile_cons {state next last : State} {c : Char} {text : List Char}
    (hstep : step state c = some next) (hkeep : keep next = true)
    (h : scanWhile keep next text = some last) : scanWhile keep state (c :: text) = some last := by
  rw [scanWhile]
  simp only [hstep, if_pos hkeep]
  exact h

/-! ### Strings -/

/-- A character of a string that needs no escape. -/
theorem step_string {c : Char} (hquote : c ≠ '"') (hslash : c ≠ '\\') (hprint : 32 ≤ c.toNat) :
    step ⟨.string, stack⟩ c = some ⟨.string, stack⟩ := by
  have hline : ¬(c = '\n' ∨ c = '\r') := by
    rintro (rfl | rfl) <;> exact absurd hprint (by decide)
  simp [step, hquote, hslash, hline]

theorem hexDigit_ge {n : Nat} (h : n < 16) :
    Json.hexDigit n ≠ '"' ∧ Json.hexDigit n ≠ '\\' ∧ 32 ≤ (Json.hexDigit n).toNat := by
  interval_cases n <;> decide

/-- The spelling of a character begins and ends in the string. -/
theorem scan_escapeChar (c : Char) :
    scanWhile (sameRegion ⟨.string, stack⟩) ⟨.string, stack⟩ (Json.escapeChar c)
      = some ⟨.string, stack⟩ := by
  have hkeep : ∀ {next : Mode}, next.region = .string →
      sameRegion ⟨.string, stack⟩ ⟨next, stack⟩ = true := sameRegion_of_region .string
  -- a backslash and one character behind it
  have hpair : ∀ d, scanWhile (sameRegion ⟨.string, stack⟩) ⟨.string, stack⟩ ['\\', d]
      = some ⟨.string, stack⟩ := fun d => by
    have hslash : step ⟨.string, stack⟩ '\\' = some ⟨.stringEscape, stack⟩ := by simp [step]
    exact scanWhile_cons hslash (hkeep rfl) (scanWhile_cons rfl (hkeep rfl) rfl)
  unfold Json.escapeChar
  split_ifs with hquote hslash hprint
  all_goals try exact hpair _
  · refine scanWhile_stays (hkeep rfl) (List.forall_mem_singleton.mpr ?_)
    exact step_string hquote hslash hprint
  · obtain ⟨hq, hs, hp⟩ := hexDigit_ge (show c.toNat / 16 < 16 by omega)
    obtain ⟨hq', hs', hp'⟩ := hexDigit_ge (show c.toNat % 16 < 16 by omega)
    refine scanWhile_append (hpair 'u') (scanWhile_stays (hkeep rfl) ?_)
    simp only [List.forall_mem_cons]
    exact ⟨rfl, rfl, step_string hq hs hp, step_string hq' hs' hp', nofun⟩

/-! ### Templates -/

/-- Behind a dollar sign no brace may follow. -/
theorem step_template (stack : List Opener) {mode : Mode} {c : Char}
    (hmode : mode = .template ∨ mode = .templateDollar ∧ c ≠ '\x7b') :
    step ⟨mode, stack⟩ c = some (stepTemplate stack c) := by
  rcases hmode with rfl | ⟨rfl, hc⟩
  · rfl
  · simp [step, hc]

theorem scan_escapeTemplate (stack : List Opener) (text : List Char) {mode : Mode}
    (hmode : mode = .template ∨ mode = .templateDollar ∧ text.head? ≠ some '\x7b') :
    ∃ next, (next = .template ∨ next = .templateDollar)
      ∧ scanWhile (sameRegion ⟨.template, stack⟩) ⟨mode, stack⟩ (escapeTemplate text)
        = some ⟨next, stack⟩ := by
  have hkeep : ∀ {next : Mode}, next.region = .template →
      sameRegion ⟨.template, stack⟩ ⟨next, stack⟩ = true := sameRegion_of_region .template
  induction text using escapeTemplate.induct generalizing mode with
  | case1 => exact ⟨mode, hmode.imp_right And.left, rfl⟩
  | case2 rest ih =>
      obtain ⟨next, hnext, hrest⟩ := ih (.inl rfl)
      refine ⟨next, hnext, ?_⟩
      rw [escapeTemplate]
      refine scanWhile_cons (step_template stack ?_) (hkeep rfl) ?_
      · exact hmode.imp_right fun h => ⟨h.1, by decide⟩
      · exact scanWhile_cons rfl (hkeep rfl) (scanWhile_cons rfl (hkeep rfl) hrest)
  | case3 c rest hne hc ih =>
      obtain ⟨next, hnext, hrest⟩ := ih (.inl rfl)
      refine ⟨next, hnext, ?_⟩
      rw [escapeTemplate.eq_3 _ _ hne, if_pos hc]
      refine scanWhile_cons (step_template stack ?_) (hkeep rfl) ?_
      · exact hmode.imp_right fun h => ⟨h.1, by decide⟩
      · exact scanWhile_cons rfl (hkeep rfl) hrest
  | case4 c rest hne hc ih =>
      rw [escapeTemplate.eq_3 _ _ hne, if_neg hc]
      rw [not_or] at hc
      have hstep := step_template stack
        (show mode = .template ∨ mode = .templateDollar ∧ c ≠ '\x7b' by simpa using hmode)
      by_cases hdollar : c = '$'
      · subst hdollar
        have hrest : rest.head? ≠ some '\x7b' := by
          intro hbrace
          obtain ⟨tail, rfl⟩ := List.head?_eq_some_iff.mp hbrace
          exact hne tail rfl rfl
        obtain ⟨next, hnext, hscan⟩ := ih (.inr ⟨rfl, hrest⟩)
        exact ⟨next, hnext, scanWhile_cons hstep (hkeep rfl) hscan⟩
      · have hplain : stepTemplate stack c = ⟨.template, stack⟩ := by
          simp [stepTemplate, hc.1, hc.2, hdollar]
        obtain ⟨next, hnext, hscan⟩ := ih (.inl rfl)
        exact ⟨next, hnext, scanWhile_cons (hplain ▸ hstep) (hkeep rfl) hscan⟩

/-! ### Comments -/

/-- Behind a star no slash may follow. -/
theorem step_comment (stack : List Opener) {mode : Mode} {c : Char}
    (hmode : mode = .blockComment ∨ mode = .blockStar ∧ c ≠ '/') :
    step ⟨mode, stack⟩ c = some ⟨if c = '*' then .blockStar else .blockComment, stack⟩ := by
  rcases hmode with rfl | ⟨rfl, hc⟩
  · rfl
  · simp [step, hc]

theorem scan_replacePair (stack : List Opener) (text : List Char) {mode : Mode}
    (hmode : mode = .blockComment ∨ mode = .blockStar ∧ text.head? ≠ some '/') :
    ∃ next : Mode, next.region = .blockComment
      ∧ scanWhile (sameRegion ⟨.blockComment, stack⟩) ⟨mode, stack⟩
          (Text.replacePair '*' '/' ['*', '\\', '/'] text) = some ⟨next, stack⟩ := by
  have hkeep : ∀ {next : Mode}, next.region = .blockComment →
      sameRegion ⟨.blockComment, stack⟩ ⟨next, stack⟩ = true := sameRegion_of_region .blockComment
  fun_induction Text.replacePair '*' '/' ['*', '\\', '/'] text generalizing mode with
  | case1 x y rest hpair ih =>
      obtain ⟨next, hnext, hrest⟩ := ih (.inl rfl)
      refine ⟨next, hnext, ?_⟩
      have hstar := step_comment stack
        (show mode = .blockComment ∨ mode = .blockStar ∧ x ≠ '/' by simpa using hmode)
      rw [hpair.1] at hstar
      refine scanWhile_cons hstar (hkeep rfl) ?_
      exact scanWhile_cons rfl (hkeep rfl) (scanWhile_cons rfl (hkeep rfl) hrest)
  | case2 x y rest hpair ih =>
      have hstep := step_comment stack
        (show mode = .blockComment ∨ mode = .blockStar ∧ x ≠ '/' by simpa using hmode)
      by_cases hstar : x = '*'
      · have hy : y ≠ '/' := fun hy => hpair ⟨hstar, hy⟩
        rw [if_pos hstar] at hstep
        obtain ⟨next, hnext, hscan⟩ := ih (.inr ⟨rfl, by simpa using hy⟩)
        exact ⟨next, hnext, scanWhile_cons hstep (hkeep rfl) hscan⟩
      · rw [if_neg hstar] at hstep
        obtain ⟨next, hnext, hscan⟩ := ih (.inl rfl)
        exact ⟨next, hnext, scanWhile_cons hstep (hkeep rfl) hscan⟩
  | case3 text hshort =>
      match text, hshort with
      | [], _ =>
          refine ⟨mode, ?_, rfl⟩
          rcases hmode with rfl | ⟨rfl, -⟩ <;> rfl
      | [c], _ =>
          have hregion : (if c = '*' then Mode.blockStar else Mode.blockComment).region
              = .blockComment := by
            split <;> rfl
          have hstep := step_comment stack
            (show mode = .blockComment ∨ mode = .blockStar ∧ c ≠ '/' by simpa using hmode)
          exact ⟨_, hregion, scanWhile_cons hstep (hkeep hregion) rfl⟩
      | x :: y :: rest, hshort => exact (hshort x y rest rfl).elim

/-! ### Code -/

/-- The characters at which the lexer does something in code. -/
def codeMarks : List Char :=
  ['(', '[', '\x7b', ')', ']', '\x7d', '"', '\x60', '/', '\x27']

theorem step_code {c : Char} (h : c ∉ codeMarks) :
    step ⟨.code, stack⟩ c = some ⟨.code, stack⟩ := by
  simp only [codeMarks, List.mem_cons, List.not_mem_nil, or_false, not_or] at h
  simp [step, stepCode, h]

theorem step_nameChar {c : Char} (h : Text.isNameChar c = true) :
    step ⟨.code, stack⟩ c = some ⟨.code, stack⟩ := by
  have hmarks : ∀ mark ∈ codeMarks, Text.isNameChar mark = false := by
    intro mark hmark
    fin_cases hmark <;> rfl
  exact step_code fun hmem => by simp [hmarks c hmem] at h

theorem step_numberChar {c : Char} (h : Decimal.isNumberChar c = true) :
    step ⟨.code, stack⟩ c = some ⟨.code, stack⟩ := by
  have hmarks : ∀ mark ∈ codeMarks, Decimal.isNumberChar mark = false := by
    intro mark hmark
    fin_cases hmark <;> rfl
  exact step_code fun hmem => by simp [hmarks c hmem] at h

/-- **A name is no more than a name.** -/
theorem fits_name (stack : List Opener) {name : String} (h : Text.IsName name) :
    Fits ⟨.code, stack⟩ (.document name) ⟨.code, stack⟩ :=
  .code (.inl h) (scanWhile_stays rfl fun c hc => step_nameChar (h c hc))

theorem fits_number (stack : List Opener) (number : Json.Number) :
    Fits ⟨.code, stack⟩ (.document number.render) ⟨.code, stack⟩ :=
  .code (.inr (.inr ⟨number, rfl⟩))
    (scanWhile_stays rfl fun _ hc => step_numberChar (Json.isNumberChar_of_mem_render hc))

/-- **Text between quotes is a string, and the string ends where the quotes do.** -/
theorem fits_string (stack : List Opener) (text : String) :
    Fits ⟨.string, stack⟩ (.document (String.ofList (text.toList.flatMap Json.escapeChar)))
      ⟨.string, stack⟩ := by
  refine .inside (by simp [Mode.region]) ?_
  rw [String.toList_ofList]
  exact scanWhile_flatMap fun c _ => scan_escapeChar c

/-- **Text in a template stays text.** -/
theorem fits_template (stack : List Opener) (text : String) :
    ∃ mode, (mode = .template ∨ mode = .templateDollar)
      ∧ Fits ⟨.template, stack⟩ (.document (String.ofList (escapeTemplate text.toList)))
        ⟨mode, stack⟩ := by
  obtain ⟨mode, hmode, hscan⟩ := scan_escapeTemplate stack text.toList (.inl rfl)
  refine ⟨mode, hmode, .inside (by simp [Mode.region]) ?_⟩
  rwa [String.toList_ofList]

/-- **Text in a comment does not end the comment.** -/
theorem fits_comment (stack : List Opener) (text : String) :
    ∃ mode : Mode, mode.region = .blockComment
      ∧ Fits ⟨.blockComment, stack⟩ (.document (escapeComment text)) ⟨mode, stack⟩ := by
  obtain ⟨mode, hmode, hscan⟩ := scan_replacePair stack text.toList (.inl rfl)
  refine ⟨mode, hmode, .inside (by simp [Mode.region]) ?_⟩
  unfold escapeComment
  rwa [String.toList_ofList]

/-- A name in a comment. -/
theorem fits_commentName (stack : List Opener) {name : String} (h : Text.IsName name) :
    Fits ⟨.blockComment, stack⟩ (.document name) ⟨.blockComment, stack⟩ := by
  refine .inside (by simp [Mode.region])
    (scanWhile_stays (sameRegion_of_region _ rfl) fun c hc => ?_)
  have hstar : c ≠ '*' := fun hstar => absurd (h c hc) (by rw [hstar]; decide)
  rw [step_comment stack (.inl rfl), if_neg hstar]

/-! ### The line comment

It holds a point in time, which has no line breaks.
-/

/-- A text without line breaks. -/
def SingleLine (text : String) : Prop := ∀ c ∈ text.toList, endsLine c = false

theorem SingleLine.append {first second : String} (hfirst : SingleLine first)
    (hsecond : SingleLine second) : SingleLine (first ++ second) := by
  unfold SingleLine
  rw [String.toList_append]
  exact List.forall_mem_append.mpr ⟨hfirst, hsecond⟩

theorem singleLine_toString (n : Nat) : SingleLine (toString n) := by
  intro c hc
  rw [Decimal.toList_toString] at hc
  have hbreaks : ∀ d ∈ ['\n', '\r', '\u2028', '\u2029'], d.isDigit = false := by
    intro d hd
    fin_cases hd <;> rfl
  by_contra hends
  have hmem : c ∈ ['\n', '\r', '\u2028', '\u2029'] := by
    simpa [endsLine, or_iff_not_imp_left] using hends
  simpa [hbreaks c hmem] using Decimal.isDigit_of_mem_toDigits hc

theorem singleLine_padded (width n : Nat) : SingleLine (Timestamp.padded width n) := by
  refine SingleLine.append (fun c hc => ?_) (singleLine_toString n)
  rw [String.toList_ofList] at hc
  rw [List.eq_of_mem_replicate hc]
  rfl

theorem singleLine_renderYear (year : Int) : SingleLine (Timestamp.renderYear year) := by
  unfold Timestamp.renderYear
  split
  · exact singleLine_padded 4 _
  · refine .append ?_ (singleLine_padded 4 _)
    split <;> simp [SingleLine, endsLine]

theorem singleLine_timestamp (time : Timestamp) : SingleLine time.render := by
  have hmarks : SingleLine "-" ∧ SingleLine "T" ∧ SingleLine ":" ∧ SingleLine "."
      ∧ SingleLine "Z" := by
    simp [SingleLine, endsLine]
  obtain ⟨hdash, htime, hcolon, hpoint, hzone⟩ := hmarks
  exact singleLine_renderYear _ |>.append hdash |>.append (singleLine_padded 2 _)
    |>.append hdash |>.append (singleLine_padded 2 _)
    |>.append htime |>.append (singleLine_padded 2 _)
    |>.append hcolon |>.append (singleLine_padded 2 _)
    |>.append hcolon |>.append (singleLine_padded 2 _)
    |>.append hpoint |>.append (singleLine_padded 3 _) |>.append hzone

theorem fits_timestamp (stack : List Opener) (time : Timestamp) :
    Fits ⟨.lineComment, stack⟩ (.document time.render) ⟨.lineComment, stack⟩ := by
  refine .inside (by simp [Mode.region])
    (scanWhile_stays (sameRegion_of_region _ rfl) fun c hc => ?_)
  simp [step, singleLine_timestamp time c hc]

end Lexer
end ApiTypings
