/-
The texts of scalars: plain, quoted, and in blocks.

Within a scalar a single break is read as a space, and of several breaks all but the first
are kept.  Plain and quoted scalars drop the blanks around their breaks; blocks keep what
is indented deeper than they are.

Every loop takes at least one character a turn, so the number of characters ahead bounds
its turns.
-/
import ApiTypings.Json.Reader
import ApiTypings.Yaml.Cursor

namespace ApiTypings.Yaml

/-! ### Folding -/

/-- The blanks and breaks between two parts of a scalar. -/
structure Gap where
  /-- blanks within a line, in order; dropped when a break follows -/
  spaces : List Char := []
  /-- whether a break has been read -/
  broken : Bool := false
  /-- the first break -/
  first : List Char := []
  /-- the breaks after the first -/
  others : List Char := []

namespace Gap

/-- What the gap is read as. -/
def fold (gap : Gap) : List Char :=
  if !gap.broken then gap.spaces
  else if gap.first = ['\n'] then (if gap.others.isEmpty then [' '] else gap.others)
  else gap.first ++ gap.others

end Gap

/-- Reads blanks and breaks. In a plain scalar, a tab that stands before the
column `least` at the start of a line is refused. -/
def scanGap (least : Option Nat) : Nat → Gap → Cursor → Option (Gap × Cursor)
  | 0, gap, cursor => some (gap, cursor)
  | turns + 1, gap, cursor =>
    match cursor.rest with
    | [] => some (gap, cursor)
    | c :: _ =>
      if isSpace c then
        if gap.broken && c = '\t' && (least.any fun least => cursor.column < least) then none
        else if gap.broken then scanGap least turns gap cursor.advance
        else scanGap least turns { gap with spaces := gap.spaces ++ [c] } cursor.advance
      else if isBreak c then
        let (text, cursor) := cursor.readBreak
        if gap.broken then
          scanGap least turns { gap with others := gap.others ++ text } cursor
        else scanGap least turns { gap with broken := true, first := text, spaces := [] } cursor
      else some (gap, cursor)

/-! ### Plain scalars -/

/-- The characters that end a plain scalar, or begin something else, inside brackets. -/
def isFlowIndicator (c : Char) : Bool :=
  c = ',' || c = '[' || c = ']' || c = '\x7b' || c = '\x7d'

/-- Reads the characters of a plain scalar up to a blank or an indicator, in reverse before
`read`. Inside brackets, a colon directly before an indicator is refused. -/
def scanPlainRun (inFlow : Bool) : Nat → List Char → Cursor → Option (List Char × Cursor)
  | 0, read, cursor => some (read, cursor)
  | turns + 1, read, cursor =>
    match cursor.rest with
    | [] => some (read, cursor)
    | c :: rest =>
      if isSpace c || isBreak c then some (read, cursor)
      else if inFlow && c = ':' && rest.head?.any (fun d => isFlowIndicator d || d = '?') then none
      else if (c = ':' && cursor.blankAt 1) || (inFlow && isFlowIndicator c) then
        some (read, cursor)
      else scanPlainRun inFlow turns (c :: read) cursor.advance

/-- A plain scalar, and whether it ended behind a break. Its text is in reverse before `read`, and
`gap` is what has been read since. `least` is the column that its further lines must reach. -/
def scanPlain (inFlow : Bool) (least : Nat) :
    Nat → List Char → Gap → Cursor → Option (List Char × Bool × Cursor)
  | 0, read, gap, cursor => some (read, gap.broken, cursor)
  | turns + 1, read, gap, cursor => do
    if cursor.seesDocumentMarker || cursor.sees '#' then return (read, gap.broken, cursor)
    let (run, after) ← scanPlainRun inFlow cursor.rest.length [] cursor
    let (read, gap) :=
      if run.isEmpty then (read, gap) else (run ++ gap.fold.reverse ++ read, ({} : Gap))
    if !(after.seesAny fun c => isSpace c || isBreak c) then return (read, gap.broken, after)
    let (gap, after) ← scanGap (some least) after.rest.length gap after
    if !inFlow && after.column < least then return (read, gap.broken, after)
    scanPlain inFlow least turns read gap after

/-! ### Quoted scalars -/

/-- What a letter behind a backslash stands for, or how many hexadecimal digits follow it. -/
def escapeOf? : Char → Option (Char ⊕ Nat)
  | '0' => some (.inl '\x00')
  | 'a' => some (.inl '\x07')
  | 'b' => some (.inl '\x08')
  | 't' => some (.inl '\t')
  | '\t' => some (.inl '\t')
  | 'n' => some (.inl '\n')
  | 'v' => some (.inl '\x0b')
  | 'f' => some (.inl '\x0c')
  | 'r' => some (.inl '\r')
  | 'e' => some (.inl '\x1b')
  | ' ' => some (.inl ' ')
  | '"' => some (.inl '"')
  | '/' => some (.inl '/')
  | '\\' => some (.inl '\\')
  | 'N' => some (.inl '\u0085')
  | '_' => some (.inl '\u00a0')
  | 'L' => some (.inl '\u2028')
  | 'P' => some (.inl '\u2029')
  | 'x' => some (.inr 2)
  | 'u' => some (.inr 4)
  | 'U' => some (.inr 8)
  | _ => none

/-- The value of the next `count` hexadecimal digits. -/
def hexValue? (digits : List Char) (count : Nat) : Option Nat :=
  if digits.length < count then none
  else (digits.take count).foldlM (fun n c => (Json.hexValue? c).map (16 * n + ·)) 0

/-- The character with a code point, if it is a Unicode scalar value. -/
def scalarValue? (n : Nat) : Option Char :=
  if n ≤ 0x10FFFF ∧ ¬(0xD800 ≤ n ∧ n ≤ 0xDFFF) then some (Char.ofNat n) else none

/-- Reads the characters of a quoted scalar up to a blank or the closing quote, in reverse before
`read`. The flag says that an escaped break has been read. -/
def scanQuotedRun (single : Bool) : Nat → List Char → Cursor → Option (List Char × Bool × Cursor)
  | 0, read, cursor => some (read, false, cursor)
  | turns + 1, read, cursor =>
    match cursor.rest with
    | [] => some (read, false, cursor)
    | c :: rest =>
      if isSpace c || isBreak c then some (read, false, cursor)
      else if single && c = '\'' && rest.head? = some '\'' then
        scanQuotedRun single turns ('\'' :: read) (cursor.advanceBy 2)
      else if c = (if single then '\'' else '"') then some (read, false, cursor)
      else if !single && c = '\\' then
        match rest with
        | [] => none
        | d :: digits =>
          if isBreak d then some (read, true, cursor.advance.readBreak.2)
          else
            match escapeOf? d with
            | none => none
            | some (.inl c) => scanQuotedRun single turns (c :: read) (cursor.advanceBy 2)
            | some (.inr count) =>
              match (hexValue? digits count).bind scalarValue? with
              | none => none
              | some c => scanQuotedRun single turns (c :: read) (cursor.advanceBy (2 + count))
      else scanQuotedRun single turns (c :: read) cursor.advance

/-- A quoted scalar behind its opening quote. Its text is in reverse before `read`. -/
def scanQuoted (single : Bool) : Nat → List Char → Cursor → Option (List Char × Cursor)
  | 0, _, _ => none
  | turns + 1, read, cursor => do
    if cursor.seesDocumentMarker || cursor.atEnd then failure
    let (read, escaped, cursor) ← scanQuotedRun single cursor.rest.length read cursor
    if cursor.sees (if single then '\'' else '"') then return (read, cursor.advance)
    let (gap, cursor) ← scanGap none cursor.rest.length { broken := escaped } cursor
    let gap := if escaped then { gap with first := [] } else gap
    scanQuoted single turns (gap.fold.reverse ++ read) cursor

/-! ### Block scalars -/

/-- What is kept of the breaks at the end of a block. -/
inductive Chomping
  /-- none -/
  | strip
  /-- the first -/
  | clip
  /-- all -/
  | keep
  deriving DecidableEq

/-- Reads the indentation of the next line of a block, and empty lines before it; `indent` is zero
as long as it is not known. Gives the breaks and the greatest column that was reached. -/
def scanBlockBreaks (indent : Nat) :
    Nat → List Char → Nat → Cursor → Option (List Char × Nat × Cursor)
  | 0, breaks, deepest, cursor => some (breaks, deepest, cursor)
  | turns + 1, breaks, deepest, cursor =>
    let cursor :=
      if indent = 0 then cursor.skipWhile (· = ' ')
      else
        let spaces := (cursor.rest.take (indent - cursor.column)).takeWhile (· = ' ')
        cursor.advanceBy spaces.length
    let deepest := max deepest cursor.column
    if (indent = 0 || cursor.column < indent) && cursor.sees '\t' then none
    else if cursor.seesAny isBreak then
      let (text, cursor) := cursor.readBreak
      scanBlockBreaks indent turns (breaks ++ text) deepest cursor
    else some (breaks, deepest, cursor)

/-- What has been read of a block. -/
structure BlockState where
  /-- in reverse -/
  text : List Char := []
  /-- the break behind the last line -/
  lineBreak : List Char := []
  /-- the breaks of the empty lines after it -/
  emptyLines : List Char := []
  /-- whether the last line begins with a blank -/
  afterBlank : Bool := false

/-- Reads the lines of a block that are indented by `indent`. -/
def scanBlockLines (literal : Bool) (indent : Nat) :
    Nat → BlockState → Cursor → Option (BlockState × Cursor)
  | 0, state, cursor => some (state, cursor)
  | turns + 1, state, cursor => do
    if cursor.column ≠ indent || cursor.atEnd then return (state, cursor)
    let blank := cursor.seesAny isSpace
    let joint :=
      if !literal && state.lineBreak = ['\n'] && !state.afterBlank && !blank then
        (if state.emptyLines.isEmpty then [' '] else []) ++ state.emptyLines
      else state.lineBreak ++ state.emptyLines
    let (line, cursor) := cursor.takeWhile fun c => !isBreak c
    let (lineBreak, cursor) := cursor.readBreak
    let (emptyLines, _, cursor) ← scanBlockBreaks indent cursor.rest.length.succ [] 0 cursor
    scanBlockLines literal indent turns
      { text := line.reverse ++ joint.reverse ++ state.text, lineBreak, emptyLines,
        afterBlank := blank } cursor

/-- The indicators of a block: what is kept at its end, and its indentation relative to the
node around it if that is given. -/
def scanBlockHeader (cursor : Cursor) : Option (Chomping × Option Nat × Cursor) :=
  let sign : Char → Option Chomping := fun c =>
    if c = '+' then some .keep else if c = '-' then some .strip else none
  match cursor.rest with
  | c :: rest =>
    match sign c with
    | some chomping =>
      match rest with
      | d :: _ =>
        if d = '0' then none
        else if d.isDigit then some (chomping, some (d.toNat - 48), cursor.advanceBy 2)
        else some (chomping, none, cursor.advance)
      | [] => some (chomping, none, cursor.advance)
    | none =>
      if c = '0' then none
      else if c.isDigit then
        match rest.head?.bind sign with
        | some chomping => some (chomping, some (c.toNat - 48), cursor.advanceBy 2)
        | none => some (.clip, some (c.toNat - 48), cursor.advance)
      else some (.clip, none, cursor)
  | [] => some (.clip, none, cursor)

/-- A block behind its indicator, inside a node that is indented by `parent`; -1 at the top. -/
def scanBlock (literal : Bool) (parent : Int) (cursor : Cursor) : Option (String × Cursor) := do
  let (chomping, increment, cursor) ← scanBlockHeader cursor
  let cursor := (cursor.skipWhile isSpace).skipComment
  guard (cursor.atEnd || cursor.seesAny isBreak)
  let cursor := cursor.readBreak.2
  let given := match increment with
    | some n => (max parent 0).toNat + n
    | none => 0
  let (emptyLines, deepest, cursor) ← scanBlockBreaks given cursor.rest.length.succ [] 0 cursor
  let indent := if given = 0 then max (max deepest (parent + 1).toNat) 1 else given
  let (state, cursor) ←
    scanBlockLines literal indent cursor.rest.length.succ { emptyLines } cursor
  let ending := match chomping with
    | .strip => []
    | .clip => state.lineBreak
    | .keep => state.lineBreak ++ state.emptyLines
  return (String.ofList (state.text.reverse ++ ending), cursor)

end ApiTypings.Yaml
