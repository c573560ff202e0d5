/-
Decimal numbers in canonical form, and the shortest decimal that names a binary64.

A decimal is a sign, a whole number of digits and a power of ten, with no trailing
zero among the digits, so two decimals are equal exactly when they stand for the
same signed number.  The only zeros are `0` and `-0`.

The reals that round to a given binary64 form an interval around it, with its ends
included when the significand is even.  `shortest` walks through the grids of one,
two, … seventeen digits and takes the first grid on which one of the two neighbours
of the value lies in that interval; of two such neighbours the nearer one.
-/
import ApiTypings.Decimal.Binary

namespace ApiTypings

/-- A decimal without a trailing zero is canonical; zero has exponent zero. -/
def CanonicalDigits (digits : Nat) (exponent : Int) : Prop :=
  if digits = 0 then exponent = 0 else digits % 10 ≠ 0

instance (digits : Nat) (exponent : Int) : Decidable (CanonicalDigits digits exponent) := by
  unfold CanonicalDigits; infer_instance

/-- The number `± digits * 10 ^ exponent`. -/
structure Decimal where
  negative : Bool
  digits : Nat
  exponent : Int
  canonical : CanonicalDigits digits exponent
  deriving DecidableEq

namespace Decimal

def zero (negative : Bool) : Decimal := ⟨negative, 0, 0, rfl⟩

/-- `digits * 10 ^ exponent` with the trailing zeros of `digits` moved into the exponent. -/
def ofDigits (negative : Bool) (digits : Nat) (exponent : Int) : Decimal :=
  if h0 : digits = 0 then zero negative
  else if h : digits % 10 = 0 then ofDigits negative (digits / 10) (exponent + 1)
  else ⟨negative, digits, exponent, by simp [CanonicalDigits, h0, h]⟩
termination_by digits
decreasing_by omega

/-- Which of two equally near decimals is taken. -/
inductive Tie
  | toEven
  | up
  deriving DecidableEq

/-- The value of a magnitude lies below `10 ^ scale` and not below a tenth of it. The 400 places
added before counting digits make every positive magnitude a whole number of at least one digit. -/
def scaleOf (x : Binary64) : Int :=
  ((toString (x.numerator * tenPow 400 / x.denominator)).length : Int) - 400

/-- Whether `digits * 10 ^ exponent` rounds to `x`. -/
def readsBack (x : Binary64) (digits : Nat) (exponent : Int) : Bool :=
  let below := if x.significand = twoPow 52 ∧ Binary64.leastExponent < x.exponent then 1 else 2
  let up := twoPow x.exponent.toNat * tenPow (-exponent).toNat
  let middle := digits * tenPow exponent.toNat * x.denominator * 4
  let low := (4 * x.significand - below) * up
  let high := (4 * x.significand + 2) * up
  if x.significand % 2 = 0 then low ≤ middle && middle ≤ high else low < middle && middle < high

/-- The neighbour of `x` on the grid of `10 ^ exponent` that reads back, if one does. -/
def onGrid? (tie : Tie) (x : Binary64) (exponent : Int) : Option Nat :=
  let num := x.numerator * tenPow (-exponent).toNat
  let den := x.denominator * tenPow exponent.toNat
  let lower := num / den
  match readsBack x lower exponent, readsBack x (lower + 1) exponent with
  | false, false => none
  | true, false => some lower
  | false, true => some (lower + 1)
  | true, true =>
    let twice := 2 * (num % den)
    if twice < den then some lower
    else if den < twice then some (lower + 1)
    else match tie with
      | .up => some (lower + 1)
      | .toEven => some (if lower % 2 = 0 then lower else lower + 1)

/-- The first of the grids with `places`, `places + 1`, … digits that has a point reading back
as `x`. Seventeen digits are always enough; the last line gives the exact value all the same. -/
def firstGrid (tie : Tie) (x : Binary64) (scale : Int) : Nat → Nat → Nat × Int
  | 0, _ =>
    let places := (-x.exponent).toNat
    (x.numerator * Nat.pow 5 places, -(places : Int))
  | left + 1, places =>
    match onGrid? tie x (scale - places) with
    | some digits => (digits, scale - places)
    | none => firstGrid tie x scale left (places + 1)

/-- The decimal with the fewest digits that rounds to `x`, the nearest of those. -/
def ofBinary64 (tie : Tie) (negative : Bool) (x : Binary64) : Decimal :=
  if x.significand = 0 then zero negative
  else
    let (digits, exponent) := firstGrid tie x (scaleOf x) 17 1
    ofDigits negative digits exponent

/-- The number of digits. -/
def length (d : Decimal) : Nat := (toString d.digits).length

/-- The nearest magnitude. A number of far more than 308 places before the point has none, one of
far more than 324 zeros after it rounds to zero; both are settled before any power is computed. -/
def toBinary64? (d : Decimal) : Option Binary64 :=
  let point := (d.length : Int) + d.exponent
  if d.digits = 0 ∨ point < -330 then some Binary64.zero
  else if 320 < point then none
  else Binary64.ofRatio? (d.digits * tenPow d.exponent.toNat) (tenPow (-d.exponent).toNat)

/-- How a kind of output lays out decimals. The position of the decimal point, counted from the
first digit, decides between positional and exponent form. -/
structure Layout where
  /-- least position of the point that is written positionally -/
  leastPoint : Int
  /-- greatest position of the point that is written positionally -/
  greatestPoint : Int
  /-- a positive exponent has a plus sign -/
  plusSign : Bool

/-- Digits with a point after the first `point` of them, filled up with zeros; a whole number
ends in `.0`. -/
def positional (digits : String) (point : Int) : String :=
  let zeros (n : Int) : String := String.ofList (List.replicate n.toNat '0')
  let size : Int := digits.length
  if point ≤ 0 then "0." ++ zeros (-point) ++ digits
  else if size ≤ point then digits ++ zeros (point - size) ++ ".0"
  else
    let chars := digits.toList
    String.ofList (chars.take point.toNat) ++ "." ++ String.ofList (chars.drop point.toNat)

/-- One digit, the other digits behind a point, and the exponent. -/
def scientific (plusSign : Bool) (digits : String) (point : Int) : String :=
  let exponent := point - 1
  let sign := if plusSign && 0 ≤ exponent then "+" else ""
  let mantissa := match digits.toList with
    | [] => ""
    | [c] => c.toString
    | c :: rest => c.toString ++ "." ++ String.ofList rest
  mantissa ++ "e" ++ sign ++ toString exponent

/-- The text of `d` in a layout. -/
def render (form : Layout) (d : Decimal) : String :=
  let digits := toString d.digits
  let point : Int := d.length + d.exponent
  let magnitude :=
    if form.leastPoint ≤ point ∧ point ≤ form.greatestPoint then positional digits point
    else scientific form.plusSign digits point
  if d.negative then "-" ++ magnitude else magnitude

end Decimal
end ApiTypings
