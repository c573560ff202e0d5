/-
Binary floating-point magnitudes, in exact arithmetic.

A finite binary64 without its sign is a whole number of at most 53 bits times a
power of two.  Nothing here uses hardware floats: a quotient of natural numbers is
brought to 53 bits by comparing it with powers of two and is rounded once, half
to even, so every statement about the result is a statement about `Nat`.
-/
namespace ApiTypings

def twoPow (n : Nat) : Nat := Nat.pow 2 n

def tenPow (n : Nat) : Nat := Nat.pow 10 n

/-- The magnitude `significand * 2 ^ exponent`. Normal magnitudes have 53 significant bits;
the smallest exponent, -1074, is shared with the subnormal ones. -/
structure Binary64 where
  significand : Nat
  exponent : Int
  deriving DecidableEq, Repr

/-- The whole number nearest to `num / den`; a half goes to the even neighbour. -/
def roundHalfEven (num den : Nat) : Nat :=
  let quotient := num / den
  let twice := 2 * (num % den)
  if twice < den then quotient
  else if den < twice then quotient + 1
  else if quotient % 2 = 0 then quotient
  else quotient + 1

namespace Binary64

/-- The least exponent of a binary64. -/
def leastExponent : Int := -1074

/-- The greatest exponent of a finite binary64. -/
def greatestExponent : Int := 971

def zero : Binary64 := ⟨0, leastExponent⟩

/-- `x` as a quotient of natural numbers. -/
def numerator (x : Binary64) : Nat := x.significand * twoPow x.exponent.toNat

@[inherit_doc numerator]
def denominator (x : Binary64) : Nat := twoPow (-x.exponent).toNat

/-- `num / den` divided by `2 ^ exponent`, again as a quotient. -/
def scaled (num den : Nat) (exponent : Int) : Nat × Nat :=
  (num * twoPow (-exponent).toNat, den * twoPow exponent.toNat)

/-- The exponent at which `num / den` has a 53-bit whole part, or the least one. The binary
logarithms give it up to one step, and one comparison settles the step. -/
def exponentOf (num den : Nat) : Int :=
  let estimate : Int := (num.log2 : Int) - (den.log2 : Int) - 52
  let (n, d) := scaled num den estimate
  max leastExponent (if n < d * twoPow 52 then estimate - 1 else estimate)

/-- The magnitude nearest to `num / den`, ties to even; `none` where it exceeds the finite ones. -/
def ofRatio? (num den : Nat) : Option Binary64 :=
  if num = 0 then some zero
  else
    let exponent := exponentOf num den
    let (n, d) := scaled num den exponent
    let significand := roundHalfEven n d
    let x : Binary64 :=
      if significand = twoPow 53 then ⟨twoPow 52, exponent + 1⟩ else ⟨significand, exponent⟩
    if greatestExponent < x.exponent then none else some x

/-- The product, rounded. -/
def mul? (x y : Binary64) : Option Binary64 :=
  ofRatio? (x.numerator * y.numerator) (x.denominator * y.denominator)

/-- The quotient, rounded. -/
def div? (x y : Binary64) : Option Binary64 :=
  ofRatio? (x.numerator * y.denominator) (x.denominator * y.numerator)

/-- The power of ten nearest to `10 ^ n`. -/
def tenPow? (n : Nat) : Option Binary64 := ofRatio? (tenPow n) 1

/-- The magnitude in the 63 low bits of a binary64 word; `none` for infinities and not-a-number. -/
def ofBits? (bits : UInt64) : Option Binary64 :=
  let biased := ((bits >>> 52) &&& 0x7ff).toNat
  let fraction := (bits &&& 0xfffffffffffff).toNat
  if biased = 0x7ff then none
  else if biased = 0 then some ⟨fraction, leastExponent⟩
  else some ⟨fraction + twoPow 52, (biased : Int) - 1075⟩

/-- The 63 low bits of the word of a magnitude in normal form. -/
def toBits (x : Binary64) : UInt64 :=
  if x.significand < twoPow 52 then x.significand.toUInt64
  else (x.significand - twoPow 52).toUInt64 ||| ((x.exponent + 1075).toNat.toUInt64 <<< 52)

end Binary64
end ApiTypings
