/-
Reading decimals.

Digits may stand before and behind a point, of which there may be none, and an exponent
may follow.  The value is exact; what a format allows beyond that is decided where the
format is read.
-/
import ApiTypings.Decimal.Basic

namespace ApiTypings.Decimal

/-- The value of a list of digits. -/
def digitsValue (digits : List Char) : Nat := digits.foldl (fun n c => 10 * n + (c.toNat - 48)) 0

/-- The digits at the front of a text, and the rest. -/
def spanDigits (text : List Char) : List Char × List Char :=
  (text.takeWhile Char.isDigit, text.dropWhile Char.isDigit)

/-- The digits of an exponent. -/
def scanExponentDigits (negative : Bool) (text : List Char) : Option (Option Int × List Char) :=
  match spanDigits text with
  | ([], _) => none
  | (digits, rest) =>
    let value : Int := digitsValue digits
    some (some (if negative then -value else value), rest)

/-- An exponent, if there is one. -/
def scanExponent : List Char → Option (Option Int × List Char)
  | c :: rest =>
    if c = 'e' ∨ c = 'E' then
      match rest with
      | '+' :: digits => scanExponentDigits false digits
      | '-' :: digits => scanExponentDigits true digits
      | digits => scanExponentDigits false digits
    else some (none, c :: rest)
  | [] => some (none, [])

/-- The decimal that a text without a sign spells, with the sign given. At least one digit must
stand before or behind the point. -/
def ofUnsigned? (negative : Bool) (text : List Char) : Option Decimal := do
  let (whole, rest) := spanDigits text
  let (fraction, rest) := match rest with
    | '.' :: rest => spanDigits rest
    | rest => ([], rest)
  guard !(whole.isEmpty && fraction.isEmpty)
  let (exponent, rest) ← scanExponent rest
  guard rest.isEmpty
  return ofDigits negative (digitsValue (whole ++ fraction)) (exponent.getD 0 - fraction.length)

/-- The decimal that a text spells. -/
def ofText? : List Char → Option Decimal
  | '-' :: text => ofUnsigned? true text
  | '+' :: text => ofUnsigned? false text
  | text => ofUnsigned? false text

end ApiTypings.Decimal
