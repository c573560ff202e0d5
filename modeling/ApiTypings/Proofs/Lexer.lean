/-
A lexer for generated files, and what may be written where.

The lexer reads one character at a time.  It knows code, comments, strings and templates,
and keeps the brackets that are open; a placeholder of a template is code again, closed by
the brace that belongs to it.  What the generator never writes is refused: single quotes
and lone slashes in code, and line breaks in strings.

A file is written piece by piece, and each piece is either one of the few texts that the
writer puts in by itself, or comes from the document.  `Fits` says what a piece may do to the
lexer.  Documentation comments begin and end where the writer says so and nowhere else.  Text
of the document never leaves the string, template or comment it stands in, and in code it
is plain.
-/
import Mathlib
import ApiTypings.Json.Printer
import ApiTypings.Proofs.Names

namespace ApiTypings

namespace Lexer

/-- A bracket that is open. -/
inductive Opener
  | round
  | square
  | curly
  /-- the brace of a placeholder in a template -/
  | placeholder
  deriving DecidableEq

inductive Mode
  | code
  /-- in code, behind a slash -/
  | slash
  | lineComment
  | blockComment
  /-- in a block comment, behind a star -/
  | blockStar
  | string
  /-- in a string, behind a backslash -/
  | stringEscape
  | template
  /-- in a template, behind a backslash -/
  | templateEscape
  /-- in a template, behind a dollar sign -/
  | templateDollar
  deriving DecidableEq

/-- Where the lexer is, whatever it has just read. -/
inductive Region
  | code
  | lineComment
  | blockComment
  | string
  | template
  deriving DecidableEq

def Mode.region : Mode → Region
  | code | slash => .code
  | lineComment => .lineComment
  | blockComment | blockStar => .blockComment
  | string | stringEscape => .string
  | template | templateEscape | templateDollar => .template

structure State where
  mode : Mode
  /-- the open brackets, the innermost first -/
  stack : List Opener
  deriving DecidableEq

/-- Before the first character. -/
def start : State := ⟨.code, []⟩

/-- A character that ends a line. -/
def endsLine (c : Char) : Bool := c = '\n' || c = '\r' || c = '\u2028' || c = '\u2029'

/-- One character of code. -/
def stepCode (stack : List Opener) (c : Char) : Option State :=
  if c = '(' then some ⟨.code, .round :: stack⟩
  else if c = '[' then some ⟨.code, .square :: stack⟩
  else if c = '\x7b' then some ⟨.code, .curly :: stack⟩
  else if c = ')' then
    match stack with
    | .round :: stack => some ⟨.code, stack⟩
    | _ => none
  else if c = ']' then
    match stack with
    | .square :: stack => some ⟨.code, stack⟩
    | _ => none
  else if c = '\x7d' then
    match stack with
    | .curly :: stack => some ⟨.code, stack⟩
    | .placeholder :: stack => some ⟨.template, stack⟩
    | _ => none
  else if c = '"' then some ⟨.string, stack⟩
  else if c = '\x60' then some ⟨.template, stack⟩
  else if c = '/' then some ⟨.slash, stack⟩
  else if c = '\x27' then none
  else some ⟨.code, stack⟩

/-- One character of a template that is not behind a backslash. -/
def stepTemplate (stack : List Opener) (c : Char) : State :=
  if c = '\x60' then ⟨.code, stack⟩
  else if c = '\\' then ⟨.templateEscape, stack⟩
  else if c = '$' then ⟨.templateDollar, stack⟩
  else ⟨.template, stack⟩

/-- The state after one more character. -/
def step (state : State) (c : Char) : Option State :=
  match state.mode with
  | .code => stepCode state.stack c
  | .slash =>
    if c = '/' then some ⟨.lineComment, state.stack⟩
    else if c = '*' then some ⟨.blockComment, state.stack⟩
    else none
  | .lineComment => some ⟨if endsLine c then .code else .lineComment, state.stack⟩
  | .blockComment => some ⟨if c = '*' then .blockStar else .blockComment, state.stack⟩
  | .blockStar =>
    some ⟨if c = '/' then .code else if c = '*' then .blockStar else .blockComment, state.stack⟩
  | .string =>
    if c = '"' then some ⟨.code, state.stack⟩
    else if c = '\\' then some ⟨.stringEscape, state.stack⟩
    else if c = '\n' ∨ c = '\r' then none
    else some ⟨.string, state.stack⟩
  | .stringEscape => some ⟨.string, state.stack⟩
  | .template => some (stepTemplate state.stack c)
  | .templateEscape => some ⟨.template, state.stack⟩
  | .templateDollar =>
    if c = '\x7b' then some ⟨.code, .placeholder :: state.stack⟩
    else some (stepTemplate state.stack c)

/-- Reads a text, as long as every state on the way has the property. -/
def scanWhile (keep : State → Bool) (state : State) : List Char → Option State
  | [] => some state
  | c :: rest =>
    match step state c with
    | none => none
    | some next => if keep next then scanWhile keep next rest else none

/-- Reads a text. -/
def scan (state : State) (text : List Char) : Option State := scanWhile (fun _ => true) state text

theorem scanWhile_append {keep : State → Bool} {state middle last : State}
    {first second : List Char} (hfirst : scanWhile keep state first = some middle)
    (hsecond : scanWhile keep middle second = some last) :
    scanWhile keep state (first ++ second) = some last := by
  induction first generalizing state with
  | nil =>
      cases hfirst
      exact hsecond
  | cons c first ih =>
      rw [List.cons_append]
      unfold scanWhile at hfirst ⊢
      split at hfirst
      · cases hfirst
      · rename_i next hnext
        split at hfirst
        · rename_i hkeep
          simp only [if_pos hkeep]
          exact ih hfirst
        · cases hfirst

theorem scanWhile_imp {keep other : State → Bool} (himp : ∀ state, keep state → other state)
    {state last : State} {text : List Char} (h : scanWhile keep state text = some last) :
    scanWhile other state text = some last := by
  induction text generalizing state with
  | nil => exact h
  | cons c text ih =>
      unfold scanWhile at h ⊢
      split at h
      · cases h
      · rename_i next hnext
        split at h
        · rename_i hkeep
          simp only [if_pos (himp next hkeep)]
          exact ih h
        · cases h

theorem scan_of_scanWhile {keep : State → Bool} {state last : State} {text : List Char}
    (h : scanWhile keep state text = some last) : scan state text = some last :=
  scanWhile_imp (fun _ _ => rfl) h

/-! ### Pieces -/

/-- The texts that the writer puts in by itself. -/
def ownTexts : List String := [
  -- literals and types
  "\"", "<", ">", ", ", "\x60", "$\x7b", "\x7d", "[]", "\x7b\x7d", "\x7b ", " \x7d", " | ", " & ",
  "(", ")", "; ", "readonly ", "?", "()", ": ",
  -- declarations
  "", "  ", "\n", "function ", "): ", ";\n", " extends ", " = ", "export type ",
  "import type \x7b ", " \x7d from ", "declare global \x7b\n", "\x7d\n",
  -- comments
  " *", " * ", " * @", " ", "// This file was automatically generated by fetchtype at ", " * # ",
  " * @summary ", " * @version ", " * @license ", " * @author ", " <", " * @module"]

/-- What text of the document may be in code: a name, JSON punctuation, a number, or one of the
words `true`, `false` and `null`, which are names. -/
def Plain (text : String) : Prop :=
  Text.IsName text ∨ text ∈ ["[", "]", "\x7b", "\x7d", ",", ":"]
    ∨ ∃ number : Json.Number, text = number.render

/-- A piece of a file, with where it comes from. -/
inductive Piece
  /-- the writer's own text -/
  | own (text : String)
  /-- text of the document, as it is written -/
  | document (text : String)
  /-- the beginning of a documentation comment -/
  | opening
  /-- the end of a documentation comment -/
  | closing

/-- The characters of a piece. -/
@[simp] def Piece.chars : Piece → List Char
  | own text => text.toList
  | document text => text.toList
  | opening => ['/', '*', '*']
  | closing => [' ', '*', '/']

/-- The characters of pieces in a row. -/
def written (pieces : List Piece) : List Char := pieces.flatMap Piece.chars

@[simp] theorem written_nil : written [] = [] := rfl

@[simp] theorem written_cons (piece : Piece) (pieces : List Piece) :
    written (piece :: pieces) = piece.chars ++ written pieces := rfl

@[simp] theorem written_append (first second : List Piece) :
    written (first ++ second) = written first ++ written second := by
  simp [written]

@[simp] theorem written_flatMap {α : Type} (items : List α) (pieces : α → List Piece) :
    written (items.flatMap pieces) = items.flatMap fun item => written (pieces item) := by
  simp [written, List.flatMap_assoc]

@[simp] theorem written_intercalate (separator : List Piece) (rows : List (List Piece)) :
    written (separator.intercalate rows) = (written separator).intercalate (rows.map written) := by
  induction rows with
  | nil => rfl
  | cons row rows ih => cases rows <;> simp_all

/-- Whether two states are both inside a block comment, or both outside. -/
def sameComment (a b : State) : Bool :=
  (a.mode.region = .blockComment) = (b.mode.region = .blockComment)

/-- Whether two states are in the same string, template or comment. -/
def sameRegion (a b : State) : Bool := a.mode.region = b.mode.region ∧ a.stack = b.stack

theorem sameRegion_of_region (mode : Mode) {next : Mode} {stack : List Opener}
    (h : next.region = mode.region) : sameRegion ⟨mode, stack⟩ ⟨next, stack⟩ = true := by
  simp [sameRegion, h]

/-- Whether a state is in code. -/
def inCode (state : State) : Bool := state.mode = .code

/-- What a piece may do to the lexer. -/
inductive Fits : State → Piece → State → Prop
  /-- own text does not begin or end block comments -/
  | own {state next : State} {text : String} (hown : text ∈ ownTexts)
      (h : scanWhile (sameComment state) state text.toList = some next) :
      Fits state (.own text) next
  /-- comments begin in code -/
  | opening {stack : List Opener} : Fits ⟨.code, stack⟩ .opening ⟨.blockStar, stack⟩
  /-- and what ends is a comment -/
  | closing {state : State} (h : state.mode.region = .blockComment) :
      Fits state .closing ⟨.code, state.stack⟩
  /-- text of the document in code, which is code up to its end -/
  | code {stack : List Opener} {next : State} {text : String} (hplain : Plain text)
      (h : scanWhile inCode ⟨.code, stack⟩ text.toList = some next) :
      Fits ⟨.code, stack⟩ (.document text) next
  /-- text of the document in a string, a template or a comment, which it does not leave -/
  | inside {state next : State} {text : String} (hinside : state.mode.region ≠ .code)
      (h : scanWhile (sameRegion state) state text.toList = some next) :
      Fits state (.document text) next

/-- A row of pieces, each of which fits where it stands. -/
inductive Run : State → List Piece → State → Prop
  | nil {state : State} : Run state [] state
  | cons {state middle last : State} {piece : Piece} {pieces : List Piece}
      (h : Fits state piece middle) (hrest : Run middle pieces last) :
      Run state (piece :: pieces) last

theorem Run.append {state middle last : State} {first second : List Piece}
    (hfirst : Run state first middle) (hsecond : Run middle second last) :
    Run state (first ++ second) last := by
  induction hfirst with
  | nil => exact hsecond
  | cons h _ ih => exact .cons h (ih hsecond)

theorem Run.split {state last : State} {first second : List Piece}
    (h : Run state (first ++ second) last) :
    ∃ middle, Run state first middle ∧ Run middle second last := by
  induction first generalizing state with
  | nil => exact ⟨state, .nil, h⟩
  | cons piece first ih =>
      cases h with
      | cons hfits hrest =>
          obtain ⟨middle, hfirst, hsecond⟩ := ih hrest
          exact ⟨middle, .cons hfits hfirst, hsecond⟩

theorem Run.single {state next : State} {piece : Piece} (h : Fits state piece next) :
    Run state [piece] next :=
  .cons h .nil

theorem Fits.scan {state next : State} {piece : Piece} (h : Fits state piece next) :
    Lexer.scan state piece.chars = some next := by
  cases h with
  | own _ h => exact scan_of_scanWhile h
  | opening => rfl
  | closing h =>
      obtain ⟨mode, stack⟩ := state
      cases mode <;> first | rfl | cases h
  | code _ h => exact scan_of_scanWhile h
  | inside _ h => exact scan_of_scanWhile h

/-- The lexer reads a row of pieces to the end. -/
theorem Run.scan {state last : State} {pieces : List Piece} (h : Run state pieces last) :
    Lexer.scan state (written pieces) = some last := by
  induction h with
  | nil => rfl
  | cons h _ ih => exact scanWhile_append h.scan ih

/-! ### Comments

The lexer does not touch the brackets in a comment, and no piece but the end of the comment has it
leave the comment.  So what is opened is closed by the end that the writer gives it.
-/

theorem scanWhile_keep {keep : State → Bool} {state last : State} {text : List Char}
    (hstate : keep state = true) (h : scanWhile keep state text = some last) :
    keep last = true := by
  induction text generalizing state with
  | nil =>
      cases h
      exact hstate
  | cons c text ih =>
      unfold scanWhile at h
      split at h
      · cases h
      · split at h
        · exact ih ‹_› h
        · cases h

theorem sameRegion_iff {a b : State} :
    sameRegion a b = true ↔ b.mode.region = a.mode.region ∧ b.stack = a.stack := by
  unfold sameRegion
  rw [decide_eq_true_eq]
  exact and_congr eq_comm eq_comm

theorem scanWhile_sameRegion_of_sameComment {first state last : State} {text : List Char}
    (hfirst : first.mode.region = .blockComment) (hstate : sameRegion first state = true)
    (h : scanWhile (sameComment first) state text = some last) :
    scanWhile (sameRegion first) state text = some last := by
  induction text generalizing state with
  | nil => exact h
  | cons c text ih =>
      unfold scanWhile at h ⊢
      split at h
      · cases h
      · rename_i next hnext
        split at h
        · rename_i hkeep
          obtain ⟨hregion, hstack⟩ := sameRegion_iff.mp hstate
          have hcomment : next.mode.region = .blockComment := by
            simpa [sameComment, hfirst] using hkeep
          have hsame : next.stack = state.stack := by
            obtain ⟨mode, stack⟩ := state
            rw [hfirst] at hregion
            cases mode <;> first | (cases hnext; rfl) | cases hregion
          have hkeep : sameRegion first next = true :=
            sameRegion_iff.mpr ⟨hcomment.trans hfirst.symm, hsame.trans hstack⟩
          simp only [if_pos hkeep]
          exact ih hkeep h
        · cases h

/-- A piece in a comment that is not its end stays inside. -/
theorem Fits.stays {state next : State} {piece : Piece} (h : Fits state piece next)
    (hstate : state.mode.region = .blockComment) (hpiece : piece ≠ .closing) :
    scanWhile (sameRegion state) state piece.chars = some next := by
  cases h with
  | own _ h =>
      exact scanWhile_sameRegion_of_sameComment hstate (sameRegion_iff.mpr ⟨rfl, rfl⟩) h
  | opening => cases hstate
  | closing => exact absurd rfl hpiece
  | code => cases hstate
  | inside _ h => exact h

/-- A comment lasts up to its own end. -/
theorem Run.exists_closing {first state last : State} {pieces : List Piece}
    (hfirst : first.mode.region = .blockComment) (hstate : sameRegion first state = true)
    (h : Run state pieces last) (hlast : last.mode.region ≠ .blockComment) :
    ∃ inner rest behind, pieces = inner ++ .closing :: rest
      ∧ scanWhile (sameRegion first) state (written inner) = some behind
      ∧ Lexer.scan behind (Piece.chars .closing) = some ⟨.code, first.stack⟩ := by
  induction h with
  | nil => exact absurd ((sameRegion_iff.mp hstate).1.trans hfirst) hlast
  | @cons state middle last piece pieces hfits hrest ih =>
      obtain ⟨hregion, hstack⟩ := sameRegion_iff.mp hstate
      by_cases hpiece : piece = .closing
      · subst hpiece
        obtain rfl : middle = ⟨.code, first.stack⟩ := by
          cases hfits
          rw [hstack]
        exact ⟨[], pieces, state, rfl, rfl, hfits.scan⟩
      · have hstays := hfits.stays (hregion.trans hfirst) hpiece
        have hsame : sameRegion state = sameRegion first := by
          funext other
          simp [sameRegion, hregion, hstack]
        rw [hsame] at hstays
        obtain ⟨inner, rest, behind, rfl, hscan, hclosing⟩ :=
          ih (scanWhile_keep hstate hstays) hlast
        exact ⟨piece :: inner, rest, behind, rfl, scanWhile_append hstays hscan, hclosing⟩

/-- Each comment that is opened begins in code, lasts up to the next end of a comment, and ends
there with the brackets as they were. -/
def CommentsClosed (pieces : List Piece) : Prop :=
  ∀ before after, pieces = before ++ .opening :: after →
    ∃ stack inner rest behind, after = inner ++ .closing :: rest
      ∧ scan start (written before) = some ⟨.code, stack⟩
      ∧ scanWhile (sameRegion ⟨.blockStar, stack⟩) ⟨.blockStar, stack⟩ (written inner) = some behind
      ∧ scan behind (Piece.chars .closing) = some ⟨.code, stack⟩

/-- **Comments are closed where the writer closes them.** -/
theorem Run.commentsClosed {pieces : List Piece} (h : Run start pieces start) :
    CommentsClosed pieces := by
  rintro before after rfl
  obtain ⟨middle, hbefore, hopened⟩ := h.split
  cases hopened with
  | cons hfits hafter =>
      cases hfits with
      | @opening stack =>
          obtain ⟨inner, rest, behind, hinner, hscan, hclosing⟩ :=
            hafter.exists_closing rfl (sameRegion_iff.mpr ⟨rfl, rfl⟩) (by simp [start, Mode.region])
          exact ⟨stack, inner, rest, behind, hinner, hbefore.scan, hscan, hclosing⟩

end Lexer
end ApiTypings
