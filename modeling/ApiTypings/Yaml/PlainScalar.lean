/-
What an untagged plain scalar stands for.

Null, truth values, numbers and the special floats have fixed spellings; everything else
is a string.  A whole number may be written in base 2, 8, 10 or 16.  Digits behind a
leading zero are a string.
-/
import ApiTypings.Json.Reader
import ApiTypings.Yaml.Value

namespace ApiTypings.Yaml

/-- Digits behind a leading zero, with or without a sign. -/
def isZeroPadded (chars : List Char) : Bool :=
  let digits := match chars with
    | '-' :: rest | '+' :: rest => rest
    | chars => chars
  match digits with
  | '0' :: rest => !rest.isEmpty && rest.all Char.isDigit
  | _ => false

/-- The number that digits in some base stand for; there must be at least one. -/
def digitsIn? (base : Nat) (digits : List Char) : Option Nat :=
  if digits.isEmpty then none
  else digits.foldlM (fun n c => do
    let digit ← Json.hexValue? c
    guard (digit < base)
    return base * n + digit) 0

/-- A number without its sign: a base and digits, or decimal digits. -/
def magnitude? : List Char → Option Nat
  | '0' :: 'x' :: digits => digitsIn? 16 digits
  | '0' :: 'o' :: digits => digitsIn? 8 digits
  | '0' :: 'b' :: digits => digitsIn? 2 digits
  | digits => digitsIn? 10 digits

/-- A whole number of any size. -/
def integer? (chars : List Char) : Option Int :=
  if isZeroPadded chars then none
  else match chars with
    | '-' :: rest => (magnitude? rest).map fun n => -(n : Int)
    | '+' :: rest => (magnitude? rest).map Int.ofNat
    | chars => (magnitude? chars).map Int.ofNat

/-- What a whole number is read as. -/
inductive IntegerReading
  /-- a number of at most 64 bits -/
  | number (value : Int)
  /-- a number of at most 128 bits, which no document may contain -/
  | tooLarge
  /-- no whole number, or one so large that it is read as a float -/
  | other

/-- Reads a whole number. -/
def readInteger (chars : List Char) : IntegerReading :=
  match integer? chars with
  | none => .other
  | some value =>
    if Json.FitsWord value then .number value
    else if -(twoPow 127 : Int) ≤ value ∧ value < (twoPow 128 : Int) then .tooLarge
    else .other

/-- A float. Of the numbers beyond the finite ones only the special spellings are floats. -/
def float? (chars : List Char) : Option Number :=
  let text := String.ofList chars
  if [".inf", ".Inf", ".INF", "+.inf", "+.Inf", "+.INF"].contains text then some (.infinity false)
  else if ["-.inf", "-.Inf", "-.INF"].contains text then some (.infinity true)
  else if [".nan", ".NaN", ".NAN"].contains text then some .notANumber
  else do
    let written ← Decimal.ofText? chars
    return .decimal (.ofBinary64 .toEven written.negative (← written.toBinary64?))

/-- The spellings of null; an empty scalar is null as well. -/
def isNull (text : String) : Bool := ["null", "Null", "NULL", "~"].contains text

/-- The spellings of the truth values. -/
def boolean? (text : String) : Option Bool :=
  if ["true", "True", "TRUE"].contains text then some true
  else if ["false", "False", "FALSE"].contains text then some false
  else none

namespace Value

/-- The value of a plain scalar, unless it is a whole number that is too large. -/
def ofPlain? (text : String) : Option Value :=
  let chars := text.toList
  if text = "" || isNull text then some .null
  else match boolean? text with
    | some value => some (.boolean value)
    | none =>
      match readInteger chars with
      | .number value => some (.number (.integer value))
      | .tooLarge => none
      | .other =>
        match if isZeroPadded chars then none else float? chars with
        | some value => some (.number value)
        | none => some (.string text)

end Value
end ApiTypings.Yaml
