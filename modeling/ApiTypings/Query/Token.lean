/-
The tokens of a filter.

Operators are runs of operator characters, however long, so two of them need a blank
between them.  Brackets must match, and the filters inside a string are cut into tokens
of their own.
-/
import ApiTypings.Decimal.Reader
import ApiTypings.Json.Reader
import ApiTypings.Text.Blank

namespace ApiTypings.Query

inductive Token
  | word (name : String)
  | variable (name : String)
  | format (name : String)
  | number (text : String)
  /-- literal text and the tokens of filters, in order -/
  | string (parts : List (String ⊕ List Token))
  /-- a point and a key -/
  | field (name : String)
  /-- everything else: operators, brackets and punctuation -/
  | symbol (text : String)

namespace Token

/-- The characters that operators are made of. -/
def isOperatorChar (c : Char) : Bool := "|=!<>+-*/%".toList.contains c

/-- The characters that names begin with. -/
def isNameStart (c : Char) : Bool := c.isAlpha || c = '_'

/-- The characters of names. -/
def isNameChar (c : Char) : Bool := c.isAlphanum || c = '_'

/-- A name, with the name of a module before it or not. -/
def scanName (chars : List Char) : Option (String × List Char) :=
  match chars with
  | [] => none
  | c :: _ =>
    if !isNameStart c then none
    else
      let name := chars.takeWhile isNameChar
      match chars.dropWhile isNameChar with
      | ':' :: ':' :: rest =>
        match rest with
        | d :: _ =>
          if isNameStart d then
            some (String.ofList (name ++ [':', ':'] ++ rest.takeWhile isNameChar),
              rest.dropWhile isNameChar)
          else none
        | [] => none
      | rest => some (String.ofList name, rest)

/-- Digits with or without a point and an exponent, as they are written. -/
def scanNumber (chars : List Char) : Option (String × List Char) := do
  let (_, rest) := Decimal.spanDigits chars
  let rest := match rest with
    | '.' :: rest => (Decimal.spanDigits rest).2
    | rest => rest
  let (_, rest) ← Decimal.scanExponent rest
  return (String.ofList (chars.take (chars.length - rest.length)), rest)

/-- What follows a comment. A backslash at the end of a line continues the comment; two of them
do not. -/
def skipComment (backslashes : Nat) : List Char → List Char
  | [] => []
  | '\n' :: rest => if backslashes % 2 = 0 then rest else skipComment 0 rest
  | '\\' :: rest => skipComment (backslashes + 1) rest
  | '\r' :: '\n' :: rest => if backslashes % 2 = 0 then rest else skipComment 0 rest
  | _ :: rest => skipComment 0 rest

/-- The character of an escape behind its backslash. -/
def scanEscape : List Char → Option (Char × List Char)
  | 'u' :: a :: b :: c :: d :: rest => do
    let unit ← Json.hexUnit? a b c d
    guard ¬(0xD800 ≤ unit ∧ unit < 0xE000)
    return (Char.ofNat unit, rest)
  | c :: rest => (Json.simpleEscape? c).map fun c => (c, rest)
  | [] => none

/-- Adds a character to the text at the end of parts in reverse. -/
def addChar (c : Char) : List (String ⊕ List Token) → List (String ⊕ List Token)
  | .inl text :: rest => .inl (text.push c) :: rest
  | parts => .inl c.toString :: parts

mutual
/-- The tokens up to the end of the text, or to the bracket that closes a filter inside a string.
`closing` are the brackets that are still to come, and `found` are the tokens in reverse. -/
def scan : Nat → Bool → List Char → List Token → List Char → Option (List Token × List Char)
  | 0, _, _, _, _ => none
  | turns + 1, inString, closing, found, chars =>
    match chars with
    | [] => if inString || !closing.isEmpty then none else some (found.reverse, [])
    | c :: rest =>
      let symbol (text : String) := scan turns inString closing (.symbol text :: found)
      if Text.isBlank c then scan turns inString closing found rest
      else if c = '#' then scan turns inString closing found (skipComment 0 rest)
      else if isNameStart c then do
        let (name, rest) ← scanName chars
        scan turns inString closing (.word name :: found) rest
      else if c = '$' then do
        let (name, rest) ← scanName rest
        scan turns inString closing (.variable name :: found) rest
      else if c = '@' then do
        let (name, rest) ← scanName rest
        scan turns inString closing (.format name :: found) rest
      else if c.isDigit then do
        let (text, rest) ← scanNumber chars
        scan turns inString closing (.number text :: found) rest
      else if c = '"' then do
        let (parts, rest) ← scanString turns [] rest
        scan turns inString closing (.string parts :: found) rest
      else if isOperatorChar c then
        scan turns inString closing (.symbol (String.ofList (chars.takeWhile isOperatorChar)) :: found)
          (chars.dropWhile isOperatorChar)
      else if c = '.' then
        match rest with
        | '.' :: rest => symbol ".." rest
        | d :: _ =>
          if isNameStart d then
            scan turns inString closing
              (.field (String.ofList (rest.takeWhile isNameChar)) :: found) (rest.dropWhile isNameChar)
          else symbol "." rest
        | [] => symbol "." rest
      else if c = ':' || c = ';' || c = ',' || c = '?' then symbol c.toString rest
      else if c = '(' then scan turns inString (')' :: closing) (.symbol "(" :: found) rest
      else if c = '[' then scan turns inString (']' :: closing) (.symbol "[" :: found) rest
      else if c = '\x7b' then scan turns inString ('\x7d' :: closing) (.symbol "\x7b" :: found) rest
      else match closing with
        | [] => if inString && c = ')' then some (found.reverse, rest) else none
        | d :: closing =>
          if c = d then scan turns inString closing (.symbol c.toString :: found) rest else none

/-- The parts of a string behind its opening quote, in reverse before `parts`. -/
def scanString : Nat → List (String ⊕ List Token) → List Char →
    Option (List (String ⊕ List Token) × List Char)
  | 0, _, _ => none
  | turns + 1, parts, chars =>
    match chars with
    | [] => none
    | '"' :: rest => some (parts.reverse, rest)
    | '\\' :: '(' :: rest => do
      let (tokens, rest) ← scan turns true [] [] rest
      scanString turns (.inr tokens :: parts) rest
    | '\\' :: rest => do
      let (c, rest) ← scanEscape rest
      scanString turns (addChar c parts) rest
    | c :: rest => scanString turns (addChar c parts) rest
end

/-- The tokens of a filter. Every call takes at least one character. -/
def ofText? (text : String) : Option (List Token) :=
  (scan text.length.succ false [] [] text.toList).map (·.1)

end Token
end ApiTypings.Query
