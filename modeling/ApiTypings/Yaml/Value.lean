/-
YAML values.

A number is a whole number, a decimal, an infinity or not a number.  A mapping is a list
of entries whose keys may be any values.  Two mappings are the same when they have the
same entries in whatever order, and a zero is the same with either sign; but `1` and
`1.0` are different.
-/
import ApiTypings.Json.Printer

namespace ApiTypings.Yaml

inductive Number
  | integer (value : Int)
  | decimal (value : Decimal)
  | infinity (negative : Bool)
  | notANumber
  deriving DecidableEq

inductive Value
  | null
  | boolean (value : Bool)
  | number (value : Number)
  | string (text : String)
  | sequence (items : List Value)
  | mapping (entries : List (Value × Value))
  | tagged (tag : String) (value : Value)

namespace Number

/-- Decimals in the text of a key. -/
def decimalLayout : Decimal.Layout := ⟨-4, 16, false⟩

/-- The text of a number that is a key. -/
def render : Number → String
  | integer value => toString value
  | decimal value => value.render decimalLayout
  | infinity negative => if negative then "-.inf" else ".inf"
  | notANumber => ".nan"

/-- Equality that does not tell zeros apart. -/
def same : Number → Number → Bool
  | decimal a, decimal b => a = b || (a.digits = 0 && b.digits = 0)
  | a, b => a = b

end Number

namespace Value

instance : Inhabited Value := ⟨null⟩

mutual
/-- Whether two values are the same. -/
def same : Value → Value → Bool
  | null, null => true
  | boolean a, boolean b => a = b
  | number a, number b => a.same b
  | string a, string b => a = b
  | sequence a, sequence b => sameItems a b
  | mapping a, mapping b => a.length = b.length && sameEntries a b
  | tagged s a, tagged t b => s = t && same a b
  | _, _ => false

def sameItems : List Value → List Value → Bool
  | [], [] => true
  | a :: as, b :: bs => same a b && sameItems as bs
  | _, _ => false

/-- Whether every entry of a list has one like it in another. -/
def sameEntries : List (Value × Value) → List (Value × Value) → Bool
  | [], _ => true
  | (key, value) :: rest, entries =>
    (entries.any fun entry => same key entry.1 && same value entry.2) && sameEntries rest entries
end

/-- The value under a key. -/
def lookup? (key : Value) (entries : List (Value × Value)) : Option Value :=
  (entries.find? fun entry => same entry.1 key).map (·.2)

mutual
/-- Nesting depth: one for a scalar. -/
def depth : Value → Nat
  | sequence items => depthItems items + 1
  | mapping entries => depthEntries entries + 1
  | tagged _ value => depth value + 1
  | _ => 1

def depthItems : List Value → Nat
  | [] => 0
  | item :: rest => max (depth item) (depthItems rest)

def depthEntries : List (Value × Value) → Nat
  | [] => 0
  | (_, value) :: rest => max (depth value) (depthEntries rest)
end

end Value
end ApiTypings.Yaml
