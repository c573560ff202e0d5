/-
The tokens of YAML text.

A block is opened by its first entry and closed by a line that is indented less, so the
scanner keeps the indentations of the open blocks.  A key without the question mark is
recognised only by the colon behind it: until then its place is remembered as a
candidate, and the tokens that a key begins with are put in there afterwards.  Inside
brackets every level has a candidate of its own.

A candidate ends at the end of its line and after 1024 characters.  Where a block mapping
can only go on with a key, losing the candidate is a failure.
-/
import ApiTypings.Yaml.ScalarText

namespace ApiTypings.Yaml

inductive Token
  | version (major minor : Nat)
  | tagHandle (handle expansion : String)
  | documentStart
  | documentEnd
  | blockSequenceStart
  | blockMappingStart
  | blockEnd
  | flowSequenceStart
  | flowSequenceEnd
  | flowMappingStart
  | flowMappingEnd
  | blockEntry
  | flowEntry
  | key
  | value
  | aliasOf (name : String)
  | anchor (name : String)
  | tag (handle suffix : String)
  | scalar (text : String) (isPlain : Bool)
  deriving DecidableEq, Repr

/-! ### Tags -/

/-- The characters of a tag, but for the percent sign of an escape. Between angle brackets three
more are allowed. -/
def isTagChar (verbatim : Bool) (c : Char) : Bool :=
  isNameChar c || ";/?:@&=+$.!~*'()".toList.contains c
    || (verbatim && (c = ',' || c = '[' || c = ']'))

/-- The octet of a percent sign and two hexadecimal digits. -/
def scanOctet (cursor : Cursor) : Option (Nat × Cursor) := do
  guard (cursor.sees '%')
  let high ← (cursor.peek 1).bind Json.hexValue?
  let low ← (cursor.peek 2).bind Json.hexValue?
  return (16 * high + low, cursor.advanceBy 3)

/-- The octets that continue a character, as six bits each behind `bits`. -/
def scanContinuation (bits : Nat) : Nat → Cursor → Option (Nat × Cursor)
  | 0, cursor => some (bits, cursor)
  | count + 1, cursor => do
    let (octet, cursor) ← scanOctet cursor
    guard (octet / 64 = 2)
    scanContinuation (64 * bits + octet % 64) count cursor

/-- A character that is written as the escaped octets of its UTF-8 form. -/
def scanEscapedChar (cursor : Cursor) : Option (Char × Cursor) := do
  let (octet, cursor) ← scanOctet cursor
  let (bits, more) ←
    if octet < 0x80 then some (octet, 0)
    else if octet / 32 = 6 then some (octet % 32, 1)
    else if octet / 16 = 14 then some (octet % 16, 2)
    else if octet / 8 = 30 then some (octet % 8, 3)
    else none
  let (code, cursor) ← scanContinuation bits more cursor
  return ((scalarValue? code).getD '\ufffd', cursor)

/-- The characters of a tag, in reverse before `read`. -/
def scanTagChars (verbatim : Bool) : Nat → List Char → Cursor → Option (List Char × Cursor)
  | 0, read, cursor => some (read, cursor)
  | turns + 1, read, cursor =>
    match cursor.rest with
    | [] => some (read, cursor)
    | c :: _ =>
      if c = '%' then do
        let (c, cursor) ← scanEscapedChar cursor
        scanTagChars verbatim turns (c :: read) cursor
      else if isTagChar verbatim c then scanTagChars verbatim turns (c :: read) cursor.advance
      else some (read, cursor)

/-- The characters of a tag, at least one. -/
def scanTagText (verbatim : Bool) (cursor : Cursor) : Option (String × Cursor) := do
  let (read, cursor) ← scanTagChars verbatim cursor.rest.length [] cursor
  guard !read.isEmpty
  return (String.ofList read.reverse, cursor)

/-- An exclamation mark, name characters, and another exclamation mark if there is one. -/
def scanHandle (cursor : Cursor) : Option (String × Cursor) := do
  guard (cursor.sees '!')
  let (name, cursor) := cursor.advance.takeWhile isNameChar
  let handle := String.ofList ('!' :: name)
  if cursor.sees '!' then return (handle ++ "!", cursor.advance)
  return (handle, cursor)

/-- A handle that names a group of tags ends in a second exclamation mark. -/
def isNamedHandle (handle : String) : Bool := 1 < handle.length && handle.endsWith "!"

/-- A tag between angle brackets, behind a handle, or behind a single exclamation mark; the
exclamation mark alone is a tag without a handle. -/
def scanTag (inFlow : Bool) (cursor : Cursor) : Option (Token × Cursor) := do
  let (handle, suffix, cursor) ←
    if cursor.peek 1 = some '<' then do
      let (suffix, cursor) ← scanTagText true (cursor.advanceBy 2)
      guard (cursor.sees '>')
      pure ("", suffix, cursor.advance)
    else do
      let (handle, cursor) ← scanHandle cursor
      if isNamedHandle handle then
        let (suffix, cursor) ← scanTagText false cursor
        pure (handle, suffix, cursor)
      else
        let start := (handle.toList.drop 1).reverse
        let (read, cursor) ← scanTagChars false cursor.rest.length start cursor
        if read.isEmpty then pure ("", "!", cursor)
        else pure ("!", String.ofList read.reverse, cursor)
  guard (cursor.blankAt 0 || (inFlow && cursor.sees ','))
  return (.tag handle suffix, cursor)

/-! ### Directives, anchors and aliases -/

/-- At most nine digits. -/
def scanVersionNumber (cursor : Cursor) : Option (Nat × Cursor) :=
  let (digits, cursor) := cursor.takeWhile Char.isDigit
  if digits.isEmpty || 9 < digits.length then none else some (Decimal.digitsValue digits, cursor)

/-- A directive behind its percent sign; the rest of its line is skipped. -/
def scanDirective (cursor : Cursor) : Option (Token × Cursor) := do
  let (name, cursor) := cursor.takeWhile isNameChar
  guard (cursor.blankAt 0)
  let cursor := cursor.skipWhile isSpace
  let (token, cursor) ←
    if name = ['Y', 'A', 'M', 'L'] then do
      let (major, cursor) ← scanVersionNumber cursor
      guard (cursor.sees '.')
      let (minor, cursor) ← scanVersionNumber cursor.advance
      pure (Token.version major minor, cursor)
    else if name = ['T', 'A', 'G'] then do
      let (handle, cursor) ← scanHandle cursor
      guard (handle = "!" || isNamedHandle handle)
      guard (cursor.seesAny isSpace)
      let (expansion, cursor) ← scanTagText true (cursor.skipWhile isSpace)
      guard (cursor.blankAt 0)
      pure (Token.tagHandle handle expansion, cursor)
    else none
  let cursor := (cursor.skipWhile isSpace).skipComment
  guard (cursor.atEnd || cursor.seesAny isBreak)
  return (token, cursor.readBreak.2)

/-- The name of an anchor or alias behind its indicator. -/
def scanName (cursor : Cursor) : Option (String × Cursor) := do
  let (name, cursor) := cursor.takeWhile isNameChar
  guard !name.isEmpty
  guard (cursor.blankAt 0 || cursor.seesAny "?:,]\x7d%@\x60".toList.contains)
  return (String.ofList name, cursor)

/-! ### The scanner -/

/-- A place at which a key may turn out to begin. -/
structure Candidate where
  /-- the number of tokens before it -/
  position : Nat
  index : Nat
  line : Nat
  column : Nat
  /-- whether the block can go on only with a key -/
  isRequired : Bool

/-- A scan in progress. -/
structure Scanner where
  cursor : Cursor
  /-- latest first -/
  tokens : List Token := []
  count : Nat := 0
  /-- the indentation of the innermost open block; -1 outside all blocks -/
  indent : Int := -1
  outerIndents : List Int := []
  /-- whether a key without a question mark may begin here -/
  keyAllowed : Bool := true
  candidate : Option Candidate := none
  /-- the candidates around the open brackets, one for each -/
  outerCandidates : List (Option Candidate) := []

namespace Scanner

/-- Whether brackets are open. -/
def inFlow (scanner : Scanner) : Bool := !scanner.outerCandidates.isEmpty

/-- Adds a token at the end. -/
def push (token : Token) (scanner : Scanner) : Scanner :=
  { scanner with tokens := token :: scanner.tokens, count := scanner.count + 1 }

/-- Adds a token behind the first `position`. -/
def insert (position : Nat) (token : Token) (scanner : Scanner) : Scanner :=
  let (later, earlier) := scanner.tokens.splitAt (scanner.count - position)
  { scanner with tokens := later ++ token :: earlier, count := scanner.count + 1 }

/-- How many of the blocks indented by `indent` and by the members of a list are indented deeper
than `column`; and the blocks that remain. -/
def unwind (column : Int) (indent : Int) : List Int → Nat × Int × List Int
  | [] => (0, indent, [])
  | outer :: rest =>
    if column < indent then
      let (count, remaining) := unwind column outer rest
      (count + 1, remaining)
    else (0, indent, outer :: rest)

/-- Closes the blocks that are indented deeper than `column`. Brackets keep blocks open. -/
def closeBlocks (column : Int) (scanner : Scanner) : Scanner :=
  if scanner.inFlow then scanner
  else
    let (count, indent, outerIndents) := unwind column scanner.indent scanner.outerIndents
    { scanner with
      tokens := List.replicate count .blockEnd ++ scanner.tokens
      count := scanner.count + count
      indent, outerIndents }

/-- Opens a block at `column` behind the first `position` tokens, unless one is open there. -/
def openBlock (position column : Nat) (token : Token) (scanner : Scanner) : Scanner :=
  if scanner.inFlow || column ≤ scanner.indent then scanner
  else
    insert position token { scanner with
      indent := column, outerIndents := scanner.indent :: scanner.outerIndents }

/-- Gives up the candidate. -/
def dropCandidate (scanner : Scanner) : Option Scanner :=
  match scanner.candidate with
  | some candidate => if candidate.isRequired then none else some { scanner with candidate := none }
  | none => some scanner

/-- What is left of a candidate when the scan has come to `cursor`. -/
def renew (cursor : Cursor) : Option Candidate → Option (Option Candidate)
  | none => some none
  | some candidate =>
    if candidate.line < cursor.line ∨ candidate.index + 1024 < cursor.index then
      if candidate.isRequired then none else some none
    else some (some candidate)

/-- Gives up the candidates that are too far away. -/
def dropStale (scanner : Scanner) : Option Scanner := do
  return { scanner with
    candidate := ← renew scanner.cursor scanner.candidate
    outerCandidates := ← scanner.outerCandidates.mapM (renew scanner.cursor) }

/-- Makes this place a candidate if a key may begin here. -/
def markCandidate (scanner : Scanner) : Option Scanner := do
  if !scanner.keyAllowed then return scanner
  let scanner ← scanner.dropCandidate
  let cursor := scanner.cursor
  return { scanner with
    candidate := some {
      position := scanner.count
      index := cursor.index
      line := cursor.line
      column := cursor.column
      isRequired := !scanner.inFlow && scanner.indent = cursor.column } }

/-- Skips blanks, comments and breaks. Outside brackets a key may begin on a new line, and there
no tab may stand before it. -/
def skipBlanks : Nat → Scanner → Scanner
  | 0, scanner => scanner
  | turns + 1, scanner =>
    let cursor := scanner.cursor
    let cursor := if cursor.column = 0 && cursor.sees '\ufeff' then cursor.advance else cursor
    let tabs := scanner.inFlow || !scanner.keyAllowed
    let cursor := (cursor.skipWhile fun c => c = ' ' || (tabs && c = '\t')).skipComment
    if cursor.seesAny isBreak then
      skipBlanks turns { scanner with
        cursor := cursor.readBreak.2, keyAllowed := scanner.keyAllowed || !scanner.inFlow }
    else { scanner with cursor }

/-- The scanner behind a token of its own that is `length` characters long. -/
def take (token : Token) (length : Nat) (scanner : Scanner) : Scanner :=
  push token { scanner with cursor := scanner.cursor.advanceBy length }

/-- A directive or a document marker closes everything. -/
def scanAtMargin (scan : Cursor → Option (Token × Cursor)) (scanner : Scanner) : Option Scanner := do
  let scanner ← (scanner.closeBlocks (-1)).dropCandidate
  let (token, cursor) ← scan scanner.cursor
  return push token { scanner with cursor, keyAllowed := false }

/-- An opening bracket. -/
def openFlow (token : Token) (scanner : Scanner) : Option Scanner := do
  let scanner ← scanner.markCandidate
  return take token 1 { scanner with
    candidate := none
    outerCandidates := scanner.candidate :: scanner.outerCandidates
    keyAllowed := true }

/-- A closing bracket. -/
def closeFlow (token : Token) (scanner : Scanner) : Option Scanner := do
  let scanner ← scanner.dropCandidate
  let scanner := match scanner.outerCandidates with
    | candidate :: outerCandidates => { scanner with candidate, outerCandidates }
    | [] => scanner
  return take token 1 { scanner with keyAllowed := false }

/-- A dash or a question mark opens a block unless brackets are open. -/
def beginEntry (start token : Token) (scanner : Scanner) : Option Scanner := do
  guard (scanner.inFlow || scanner.keyAllowed)
  (scanner.openBlock scanner.count scanner.cursor.column start).dropCandidate.map (take token 1)

/-- A colon makes the candidate a key; without a candidate it belongs to a question mark. -/
def beginValue (scanner : Scanner) : Option Scanner :=
  match scanner.candidate with
  | some candidate =>
    let scanner := scanner.insert candidate.position .key
    let scanner := scanner.openBlock candidate.position candidate.column .blockMappingStart
    some (take .value 1 { scanner with candidate := none, keyAllowed := false })
  | none => do
    guard (scanner.inFlow || scanner.keyAllowed)
    let scanner := scanner.openBlock scanner.count scanner.cursor.column .blockMappingStart
    return take .value 1 { scanner with keyAllowed := !scanner.inFlow }

/-- A token that a key may begin with. -/
def scanNode (scan : Cursor → Option (Token × Cursor)) (scanner : Scanner) : Option Scanner := do
  let scanner ← scanner.markCandidate
  let (token, cursor) ← scan scanner.cursor
  return push token { scanner with cursor, keyAllowed := false }

/-- A plain scalar. If it ended behind a break, a key may begin there. -/
def scanPlainScalar (scanner : Scanner) : Option Scanner := do
  let scanner ← scanner.markCandidate
  let cursor := scanner.cursor
  let (read, broken, cursor) ←
    scanPlain scanner.inFlow (scanner.indent + 1).toNat cursor.rest.length.succ [] {} cursor
  return push (.scalar (String.ofList read.reverse) true)
    { scanner with cursor, keyAllowed := broken }

/-- A scalar in quotes. -/
def scanQuotedScalar (single : Bool) (cursor : Cursor) : Option (Token × Cursor) := do
  let (read, cursor) ← scanQuoted single cursor.rest.length.succ [] cursor.advance
  return (.scalar (String.ofList read.reverse) false, cursor)

/-- A block scalar is never a key. -/
def scanBlockScalar (literal : Bool) (scanner : Scanner) : Option Scanner := do
  let scanner ← scanner.dropCandidate
  let (text, cursor) ← scanBlock literal scanner.indent scanner.cursor.advance
  return push (.scalar text false) { scanner with cursor, keyAllowed := true }

/-- Whether a plain scalar may begin with `c`, with what is ahead of `cursor`. -/
def beginsPlain (inFlow : Bool) (c : Char) (cursor : Cursor) : Bool :=
  !("-?:,[]\x7b\x7d#&*!|>'\"%@\x60".toList.contains c || isSpace c || isBreak c)
    || (c = '-' && !(cursor.peek 1).any isSpace)
    || (!inFlow && (c = '?' || c = ':') && !cursor.blankAt 1)

/-- Scans a token that begins with `c`. -/
def scanToken (c : Char) (scanner : Scanner) : Option Scanner :=
  let cursor := scanner.cursor
  let inFlow := scanner.inFlow
  if cursor.column = 0 && c = '%' then
    scanner.scanAtMargin fun cursor => scanDirective cursor.advance
  else if cursor.seesMarker '-' then
    scanner.scanAtMargin fun cursor => some (.documentStart, cursor.advanceBy 3)
  else if cursor.seesMarker '.' then
    scanner.scanAtMargin fun cursor => some (.documentEnd, cursor.advanceBy 3)
  else if c = '[' then scanner.openFlow .flowSequenceStart
  else if c = '\x7b' then scanner.openFlow .flowMappingStart
  else if c = ']' then scanner.closeFlow .flowSequenceEnd
  else if c = '\x7d' then scanner.closeFlow .flowMappingEnd
  else if c = ',' then
    scanner.dropCandidate.map fun scanner => take .flowEntry 1 { scanner with keyAllowed := true }
  else if c = '-' && cursor.blankAt 1 then
    (scanner.beginEntry .blockSequenceStart .blockEntry).map fun scanner =>
      { scanner with keyAllowed := true }
  else if c = '?' && (inFlow || cursor.blankAt 1) then
    (scanner.beginEntry .blockMappingStart .key).map fun scanner =>
      { scanner with keyAllowed := !inFlow }
  else if c = ':' && (inFlow || cursor.blankAt 1) then scanner.beginValue
  else if c = '*' then
    scanner.scanNode fun cursor => (scanName cursor.advance).map fun (n, rest) => (.aliasOf n, rest)
  else if c = '&' then
    scanner.scanNode fun cursor => (scanName cursor.advance).map fun (n, rest) => (.anchor n, rest)
  else if c = '!' then scanner.scanNode (scanTag inFlow)
  else if c = '|' && !inFlow then scanner.scanBlockScalar true
  else if c = '>' && !inFlow then scanner.scanBlockScalar false
  else if c = '\'' then scanner.scanNode (scanQuotedScalar true)
  else if c = '"' then scanner.scanNode (scanQuotedScalar false)
  else if beginsPlain inFlow c cursor then scanner.scanPlainScalar
  else none

/-- Scans the tokens that are left. Each of them takes at least one character, which bounds the
turns. -/
def run : Nat → Scanner → Option (List Token)
  | 0, _ => none
  | turns + 1, scanner => do
    let scanner ← (scanner.skipBlanks scanner.cursor.rest.length.succ).dropStale
    match scanner.cursor.rest with
    | [] => return (← (scanner.closeBlocks (-1)).dropCandidate).tokens.reverse
    | c :: _ => run turns (← scanToken c (scanner.closeBlocks scanner.cursor.column))

end Scanner

/-- The tokens of a text. A byte order mark at its start is not part of it. -/
def Token.ofText? (text : String) : Option (List Token) :=
  let chars := match text.toList with
    | '\ufeff' :: rest => rest
    | chars => chars
  if chars.all isAllowed then ({ cursor := { rest := chars } } : Scanner).run chars.length.succ
  else none

end ApiTypings.Yaml
