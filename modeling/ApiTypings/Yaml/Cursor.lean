/-
A position in YAML text.

The cursor knows the text ahead and the line and column it has come to.  Five characters
break a line; a carriage return and a line feed together are one break.  A break is read
as a line feed, but for the two separators of paragraphs and lines, which stay.
-/
namespace ApiTypings.Yaml

/-- A line break. -/
def isBreak (c : Char) : Bool :=
  c = '\n' || c = '\r' || c = '\u0085' || c = '\u2028' || c = '\u2029'

/-- A blank within a line. -/
def isSpace (c : Char) : Bool := c = ' ' || c = '\t'

/-- The characters that names of anchors and tags are made of. -/
def isNameChar (c : Char) : Bool := c.isAlphanum || c = '_' || c = '-'

/-- The characters that a text may contain. -/
def isAllowed (c : Char) : Bool :=
  let n := c.toNat
  n = 0x09 || n = 0x0A || n = 0x0D || (0x20 ≤ n && n ≤ 0x7E) || n = 0x85
    || (0xA0 ≤ n && n ≤ 0xFFFD) || 0x10000 ≤ n

/-- A place in a text. Lines and columns count from zero. -/
structure Cursor where
  rest : List Char
  index : Nat := 0
  line : Nat := 0
  column : Nat := 0

namespace Cursor

/-- The character `n` places ahead. -/
def peek (cursor : Cursor) (n : Nat) : Option Char := cursor.rest[n]?

/-- Whether the next character is `c`. -/
def sees (cursor : Cursor) (c : Char) : Bool := cursor.rest.head? = some c

/-- Whether the next character satisfies `p`. -/
def seesAny (cursor : Cursor) (p : Char → Bool) : Bool := cursor.rest.head?.any p

/-- Whether the text has ended. -/
def atEnd (cursor : Cursor) : Bool := cursor.rest.isEmpty

/-- Whether there is a blank, a break or the end of the text `n` places ahead. -/
def blankAt (cursor : Cursor) (n : Nat) : Bool :=
  match cursor.peek n with
  | none => true
  | some c => isSpace c || isBreak c

/-- Behind the next character, which is no break. -/
def advance (cursor : Cursor) : Cursor :=
  match cursor.rest with
  | [] => cursor
  | _ :: rest => { cursor with rest, index := cursor.index + 1, column := cursor.column + 1 }

/-- Behind the next `n` characters. -/
def advanceBy (cursor : Cursor) : Nat → Cursor
  | 0 => cursor
  | n + 1 => cursor.advance.advanceBy n

/-- What a break is read as, and the start of the next line. -/
def readBreak (cursor : Cursor) : List Char × Cursor :=
  let next (count : Nat) : Cursor :=
    { rest := cursor.rest.drop count, index := cursor.index + count, line := cursor.line + 1 }
  match cursor.rest with
  | '\r' :: '\n' :: _ => (['\n'], next 2)
  | c :: _ =>
    if c = '\u2028' ∨ c = '\u2029' then ([c], next 1)
    else if isBreak c then (['\n'], next 1)
    else ([], cursor)
  | [] => ([], cursor)

/-- Behind the longest run of characters that satisfy `p`, none of which is a break; and that
run. -/
def takeWhile (cursor : Cursor) (p : Char → Bool) : List Char × Cursor :=
  let run := cursor.rest.takeWhile p
  (run, {
    cursor with
    rest := cursor.rest.dropWhile p
    index := cursor.index + run.length
    column := cursor.column + run.length })

/-- Behind the longest run of characters that satisfy `p`, none of which is a break. -/
def skipWhile (cursor : Cursor) (p : Char → Bool) : Cursor := (cursor.takeWhile p).2

/-- Behind a comment, if there is one, at the end of its line. -/
def skipComment (cursor : Cursor) : Cursor :=
  if cursor.sees '#' then cursor.skipWhile fun c => !isBreak c else cursor

/-- Whether a line begins here with three times `c` and a blank. -/
def seesMarker (cursor : Cursor) (c : Char) : Bool :=
  cursor.column = 0 && cursor.peek 0 = some c && cursor.peek 1 = some c && cursor.peek 2 = some c
    && cursor.blankAt 3

/-- Whether a document begins or ends here. -/
def seesDocumentMarker (cursor : Cursor) : Bool := cursor.seesMarker '-' || cursor.seesMarker '.'

end Cursor
end ApiTypings.Yaml
