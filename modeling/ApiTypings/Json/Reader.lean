/-
Reading JSON text.

The text is cut into tokens, and the tokens drive a pushdown machine whose stack holds
the open arrays and objects.  Both passes consume their input, so reading ends; the
stack may hold 127 containers at most.  A text is read or refused, and the reason for a
refusal is not kept, because the caller tries another format next.
-/
import ApiTypings.Decimal.Reader
import ApiTypings.Json.Printer

namespace ApiTypings.Json

inductive Token
  | openArray
  | closeArray
  | openObject
  | closeObject
  | colon
  | comma
  | scalar (value : Json)
  deriving Inhabited

/-! ### Numbers

An integer that fits a 64-bit word is kept.  Any other number becomes a binary64 in two
steps: the leading digits that fit an unsigned word are rounded, and the result is
multiplied or divided by the rounded power of ten, which rounds once more.
-/

/-- The value of an ASCII digit. -/
def digit? (c : Char) : Option Nat := if c.isDigit then some (c.toNat - 48) else none

/-- Appends digits to a significand as long as it stays within an unsigned word. The rest begins
with the first digit that does not fit. -/
def absorbDigits (significand : Nat) : List Char → Nat × List Char
  | [] => (significand, [])
  | c :: rest =>
    let next := 10 * significand + (c.toNat - 48)
    if next < twoPow 64 then absorbDigits next rest else (significand, c :: rest)

/-- `significand * 10 ^ exponent` in two roundings; `none` beyond the finite numbers. A power below
`10 ^ -308` is divided out in portions of that size, of which two leave nothing. -/
def approximate? (significand : Nat) (exponent : Int) : Option Binary64 := do
  let x ← Binary64.ofRatio? significand 1
  if x.significand = 0 then some x
  else if 308 < exponent then none
  else if 0 ≤ exponent then x.mul? (← Binary64.tenPow? exponent.toNat)
  else if -308 ≤ exponent then x.div? (← Binary64.tenPow? (-exponent).toNat)
  else if -616 ≤ exponent then
    (← x.div? (← Binary64.tenPow? 308)).div? (← Binary64.tenPow? (-exponent - 308).toNat)
  else some Binary64.zero

/-- The number written with the given sign, whole digits, fraction digits and exponent. -/
def Number.ofParts? (negative : Bool) (whole fraction : List Char) (exponent : Option Int) :
    Option Number :=
  let value : Int := Decimal.digitsValue whole
  if fraction = [] ∧ exponent = none ∧ ¬(negative ∧ value = 0)
      ∧ FitsWord (if negative then -value else value) then
    some (.integer (if negative then -value else value))
  else
    let (high, wholeRest) := absorbDigits 0 whole
    let (significand, fractionRest) := absorbDigits high fraction
    let shift : Int := (wholeRest.length : Int) + fractionRest.length - fraction.length
    (approximate? significand (shift + exponent.getD 0)).map fun x =>
      .decimal (.ofBinary64 .toEven negative x)

/-! ### Tokens -/

/-- Digits behind a point, if there is a point; at least one must follow it. -/
def scanFraction : List Char → Option (List Char × List Char)
  | '.' :: rest =>
    match Decimal.spanDigits rest with
    | ([], _) => none
    | (digits, rest) => some (digits, rest)
  | rest => some ([], rest)

/-- A number without its sign. A leading zero stands alone. -/
def scanUnsigned (negative : Bool) (text : List Char) : Option (Number × List Char) := do
  let (whole, rest) := Decimal.spanDigits text
  guard (whole ≠ [] ∧ (whole.length = 1 ∨ whole.head? ≠ some '0'))
  let (fraction, rest) ← scanFraction rest
  let (exponent, rest) ← Decimal.scanExponent rest
  some (← Number.ofParts? negative whole fraction exponent, rest)

/-- A number at the front of a text. -/
def scanNumber : List Char → Option (Number × List Char)
  | '-' :: rest => scanUnsigned true rest
  | text => scanUnsigned false text

/-- The value of a hexadecimal digit. -/
def hexValue? (c : Char) : Option Nat :=
  if '0' ≤ c ∧ c ≤ '9' then some (c.toNat - 48)
  else if 'a' ≤ c ∧ c ≤ 'f' then some (c.toNat - 87)
  else if 'A' ≤ c ∧ c ≤ 'F' then some (c.toNat - 55)
  else none

/-- The value of four hexadecimal digits. -/
def hexUnit? (a b c d : Char) : Option Nat := do
  some ((((← hexValue? a) * 16 + (← hexValue? b)) * 16 + (← hexValue? c)) * 16 + (← hexValue? d))

/-- The character of an escape of one letter. -/
def simpleEscape? : Char → Option Char
  | '"' => some '"'
  | '\\' => some '\\'
  | '/' => some '/'
  | 'b' => some '\x08'
  | 'f' => some '\x0c'
  | 'n' => some '\n'
  | 'r' => some '\r'
  | 't' => some '\t'
  | _ => none

/-- The characters of a string literal behind its opening quote, in reverse before `read`, and
what follows the closing quote. A surrogate half must be followed by the other half. -/
def scanString (read : List Char) : List Char → Option (String × List Char)
  | [] => none
  | '"' :: rest => some (String.ofList read.reverse, rest)
  | '\\' :: 'u' :: a :: b :: c :: d :: rest => do
    let unit ← hexUnit? a b c d
    if 0xD800 ≤ unit ∧ unit < 0xDC00 then
      match rest with
      | '\\' :: 'u' :: a :: b :: c :: d :: rest =>
        let low ← hexUnit? a b c d
        guard (0xDC00 ≤ low ∧ low < 0xE000)
        let scalar := 0x10000 + (unit - 0xD800) * 0x400 + (low - 0xDC00)
        scanString (Char.ofNat scalar :: read) rest
      | _ => none
    else
      guard ¬(0xDC00 ≤ unit ∧ unit < 0xE000)
      scanString (Char.ofNat unit :: read) rest
  | '\\' :: c :: rest => do scanString ((← simpleEscape? c) :: read) rest
  | c :: rest => if c.toNat < 32 then none else scanString (c :: read) rest

/-- The rest of a text behind a word that it begins with. -/
def afterWord? : List Char → List Char → Option (List Char)
  | [], text => some text
  | c :: word, d :: text => if c = d then afterWord? word text else none
  | _ :: _, [] => none

/-- The blanks of JSON text. -/
def isBlank (c : Char) : Bool := c = ' ' || c = '\n' || c = '\t' || c = '\r'

/-- The token at the front of a text that does not begin with a blank, and the rest. -/
def scanToken? : List Char → Option (Token × List Char)
  | [] => none
  | '[' :: rest => some (.openArray, rest)
  | ']' :: rest => some (.closeArray, rest)
  | '\x7b' :: rest => some (.openObject, rest)
  | '\x7d' :: rest => some (.closeObject, rest)
  | ':' :: rest => some (.colon, rest)
  | ',' :: rest => some (.comma, rest)
  | '"' :: rest => (scanString [] rest).map fun (text, rest) => (.scalar (.string text), rest)
  | 'n' :: rest => (afterWord? ['u', 'l', 'l'] rest).map fun rest => (.scalar .null, rest)
  | 't' :: rest => (afterWord? ['r', 'u', 'e'] rest).map fun rest => (.scalar (.boolean true), rest)
  | 'f' :: rest =>
    (afterWord? ['a', 'l', 's', 'e'] rest).map fun rest => (.scalar (.boolean false), rest)
  | text => (scanNumber text).map fun (n, rest) => (.scalar (.number n), rest)

/-- The tokens of a text, in reverse before `found`. A token that does not shorten the text ends
the scan as a failure; no token is empty, so this never happens. -/
def tokensFrom (found : List Token) (text : List Char) : Option (List Token) :=
  match text with
  | [] => some found.reverse
  | c :: rest =>
    if isBlank c then tokensFrom found rest
    else
      match scanToken? (c :: rest) with
      | none => none
      | some (token, after) =>
        if after.length ≤ rest.length then tokensFrom (token :: found) after else none
termination_by text.length
decreasing_by
  all_goals simp only [List.length_cons]
  all_goals omega

/-! ### Values -/

/-- A container that is still open. Items are in reverse. -/
inductive Frame
  | array (items : List Json)
  | object (fields : List (String × Json)) (key : String)

/-- What may come next. -/
inductive Expectation
  /-- a value -/
  | value
  /-- a value, or the end of an array that has just been opened -/
  | valueOrClose
  /-- a key, or the end of an object that has just been opened -/
  | keyOrClose (fields : List (String × Json))
  /-- a key behind a comma -/
  | key (fields : List (String × Json))
  /-- a colon behind a key -/
  | colon
  /-- a comma or the end of the container on top, behind the given value -/
  | afterValue (value : Json)

/-- A reading in progress. -/
structure Reading where
  stack : List Frame
  next : Expectation

/-- The number of containers that may be open at once. -/
def nestingLimit : Nat := 127

namespace Reading

def start : Reading := ⟨[], .value⟩

/-- The reading after a token at a place where a value may begin. -/
def beginValue? (stack : List Frame) : Token → Option Reading
  | .scalar value => some ⟨stack, .afterValue value⟩
  | .openArray => if stack.length < nestingLimit then some ⟨.array [] :: stack, .valueOrClose⟩ else none
  | .openObject => if stack.length < nestingLimit then some ⟨stack, .keyOrClose []⟩ else none
  | _ => none

/-- The reading after one more token. The frame of an object is pushed with its key. -/
def step? (reading : Reading) (token : Token) : Option Reading :=
  match reading.next, token, reading.stack with
  | .valueOrClose, .closeArray, .array [] :: stack => some ⟨stack, .afterValue (.array [])⟩
  | .value, token, stack => beginValue? stack token
  | .valueOrClose, token, stack => beginValue? stack token
  | .keyOrClose fields, .closeObject, stack => some ⟨stack, .afterValue (.object fields)⟩
  | .keyOrClose fields, .scalar (.string key), stack => some ⟨.object fields key :: stack, .colon⟩
  | .key fields, .scalar (.string key), stack => some ⟨.object fields key :: stack, .colon⟩
  | .colon, .colon, stack => some ⟨stack, .value⟩
  | .afterValue value, .comma, .array items :: stack => some ⟨.array (value :: items) :: stack, .value⟩
  | .afterValue value, .closeArray, .array items :: stack =>
    some ⟨stack, .afterValue (.array (value :: items).reverse)⟩
  | .afterValue value, .comma, .object fields key :: stack =>
    some ⟨stack, .key (insertField key value fields)⟩
  | .afterValue value, .closeObject, .object fields key :: stack =>
    some ⟨stack, .afterValue (.object (insertField key value fields))⟩
  | _, _, _ => none

/-- The value of a reading that is complete. -/
def result? : Reading → Option Json
  | ⟨[], .afterValue value⟩ => some value
  | _ => none

end Reading

/-- The value that a text spells, if it is JSON. -/
def read? (text : String) : Option Json := do
  let tokens ← tokensFrom [] text.toList
  (← tokens.foldlM Reading.step? Reading.start).result?

end ApiTypings.Json
