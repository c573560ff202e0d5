/-
The text of JSON values, compact and indented.

Strings escape the quote, the backslash and the control characters below the space;
everything else is written as it is.  Numbers with a fraction are written positionally
while the point stands within sixteen places after the first digit or four zeros
before it, and with a signed exponent otherwise.
-/
import ApiTypings.Json.Basic

namespace ApiTypings.Json

/-- A lower-case hexadecimal digit. -/
def hexDigit (n : Nat) : Char := if n < 10 then Char.ofNat (48 + n) else Char.ofNat (87 + n)

/-- The spelling of one character inside a string literal. -/
def escapeChar (c : Char) : List Char :=
  if c = '"' then ['\\', '"']
  else if c = '\\' then ['\\', '\\']
  else if 32 ≤ c.toNat then [c]
  else if c = '\n' then ['\\', 'n']
  else if c = '\t' then ['\\', 't']
  else if c = '\r' then ['\\', 'r']
  else if c.toNat = 8 then ['\\', 'b']
  else if c.toNat = 12 then ['\\', 'f']
  else ['\\', 'u', '0', '0', hexDigit (c.toNat / 16), hexDigit (c.toNat % 16)]

/-- A string literal. -/
def quote (text : String) : String :=
  "\"" ++ String.ofList (text.toList.flatMap escapeChar) ++ "\""

namespace Number

/-- Decimals in JSON text. -/
def decimalLayout : Decimal.Layout := ⟨-4, 16, true⟩

def render : Number → String
  | integer value => toString value
  | decimal value => value.render decimalLayout

end Number

mutual
/-- Compact text, without blanks. -/
def render : Json → String
  | null => "null"
  | boolean value => if value then "true" else "false"
  | number value => value.render
  | string text => quote text
  | array items => "[" ++ renderItems items ++ "]"
  | object fields => "\x7b" ++ renderFields fields ++ "\x7d"

def renderItems : List Json → String
  | [] => ""
  | [item] => render item
  | item :: rest => render item ++ "," ++ renderItems rest

def renderFields : List (String × Json) → String
  | [] => ""
  | [(key, value)] => quote key ++ ":" ++ render value
  | (key, value) :: rest => quote key ++ ":" ++ render value ++ "," ++ renderFields rest
end

/-- Two blanks per level. -/
def indentation (level : Nat) : String := String.ofList (List.replicate (2 * level) ' ')

mutual
/-- Text with one item or field a line. Empty arrays and objects stay on their line. -/
def renderPretty (level : Nat) : Json → String
  | array [] => "[]"
  | array (item :: rest) =>
    "[\n" ++ indentation (level + 1) ++ renderPretty (level + 1) item
      ++ renderPrettyItems (level + 1) rest ++ "\n" ++ indentation level ++ "]"
  | object [] => "\x7b\x7d"
  | object ((key, value) :: rest) =>
    "\x7b\n" ++ indentation (level + 1) ++ quote key ++ ": " ++ renderPretty (level + 1) value
      ++ renderPrettyFields (level + 1) rest ++ "\n" ++ indentation level ++ "\x7d"
  | null => "null"
  | boolean value => if value then "true" else "false"
  | number value => value.render
  | string text => quote text

def renderPrettyItems (level : Nat) : List Json → String
  | [] => ""
  | item :: rest =>
    ",\n" ++ indentation level ++ renderPretty level item ++ renderPrettyItems level rest

def renderPrettyFields (level : Nat) : List (String × Json) → String
  | [] => ""
  | (key, value) :: rest =>
    ",\n" ++ indentation level ++ quote key ++ ": " ++ renderPretty level value
      ++ renderPrettyFields level rest
end

/-- Indented text of a whole value. -/
def pretty (value : Json) : String := renderPretty 0 value

end ApiTypings.Json
