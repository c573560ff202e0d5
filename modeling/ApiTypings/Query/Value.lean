/-
The values that filters work on.

They are JSON values whose numbers are of three kinds: whole numbers of 64 bits, floats,
and spellings, which are numbers that nobody has calculated with yet.  A spelling is
printed as it was written and counts as a float in every other respect.

Values of all kinds are ordered: null, false, true, numbers, strings, arrays, objects.
A number that is not a number is below every number, itself included.  Objects are
compared by their sorted keys first and by the values in that order then.
-/
import ApiTypings.Decimal.Reader
import ApiTypings.Json.Printer

namespace ApiTypings.Query

inductive Value
  | null
  | boolean (value : Bool)
  | integer (value : Int)
  | float (value : Float)
  | spelling (text : String)
  | string (text : String)
  | array (items : List Value)
  | object (fields : List (String × Value))

namespace Value

instance : Inhabited Value := ⟨null⟩

/-! ### Numbers -/

/-- The range of whole numbers. -/
def FitsSigned (n : Int) : Prop := -9223372036854775808 ≤ n ∧ n < 9223372036854775808

instance (n : Int) : Decidable (FitsSigned n) := by unfold FitsSigned; infer_instance

/-- The float nearest to a decimal. -/
def floatOfDecimal (d : Decimal) : Float :=
  let bits := match d.toBinary64? with
    | some x => x.toBits
    | none => 0x7ff0000000000000
  Float.ofBits (if d.negative then bits ||| 0x8000000000000000 else bits)

/-- The float that a spelling stands for. -/
def floatOfText? (text : String) : Option Float := (Decimal.ofText? text.toList).map floatOfDecimal

def ofNat (n : Nat) : Value := integer n

/-- A number with its spelling calculated. -/
def calculated : Value → Value
  | spelling text => match floatOfText? text with
    | some value => float value
    | none => null
  | value => value

/-- The float of a number. -/
def float? : Value → Option Float
  | integer n => some (Float.ofInt n)
  | float value => some value
  | spelling text => floatOfText? text
  | _ => none

/-! ### Text -/

/-- Floats are printed positionally from four places behind the point on, up to sixteen before. -/
def floatLayout : Decimal.Layout := ⟨-3, 16, false⟩

/-- The text of a float; infinities and what is not a number have none in JSON. -/
def renderFloat (value : Float) : String :=
  let bits := value.toBits
  match Binary64.ofBits? bits with
  | some x => (Decimal.ofBinary64 .up (bits >>> 63 = 1) x).render floatLayout
  | none => "null"

/-- The spelling of one character inside a string. -/
def escapeChar (c : Char) : List Char :=
  if c.toNat = 8 then ['\\', 'u', '0', '0', '0', '8']
  else if c.toNat = 12 then ['\\', 'u', '0', '0', '0', 'c']
  else Json.escapeChar c

/-- A string in quotes. -/
def quote (text : String) : String :=
  "\"" ++ String.ofList (text.toList.flatMap escapeChar) ++ "\""

mutual
/-- JSON text without blanks. -/
def render : Value → String
  | null => "null"
  | boolean value => if value then "true" else "false"
  | integer n => toString n
  | float value => renderFloat value
  | spelling text => text
  | string text => quote text
  | array items => "[" ++ renderItems items ++ "]"
  | object fields => "\x7b" ++ renderFields fields ++ "\x7d"

def renderItems : List Value → String
  | [] => ""
  | [item] => render item
  | item :: rest => render item ++ "," ++ renderItems rest

def renderFields : List (String × Value) → String
  | [] => ""
  | [(key, value)] => quote key ++ ":" ++ render value
  | (key, value) :: rest => quote key ++ ":" ++ render value ++ "," ++ renderFields rest
end

mutual
/-- A JSON value as a value to work on. -/
def ofJson : Json → Value
  | .null => null
  | .boolean value => boolean value
  | .number (.integer n) => if FitsSigned n then integer n else spelling (toString n)
  | .number n => spelling n.render
  | .string text => string text
  | .array items => array (ofItems items)
  | .object fields => object (ofFields fields)

def ofItems : List Json → List Value
  | [] => []
  | item :: rest => ofJson item :: ofItems rest

def ofFields : List (String × Json) → List (String × Value)
  | [] => []
  | (key, value) :: rest => (key, ofJson value) :: ofFields rest
end

/-- What counts as true: all but false and null. -/
def isTruthy : Value → Bool
  | null | boolean false => false
  | _ => true

/-! ### Order -/

mutual
/-- The value with the fields of its objects sorted by key. -/
def sorted : Value → Value
  | array items => array (sortedItems items)
  | object fields => object ((sortedFields fields).mergeSort fun a b => a.1 ≤ b.1)
  | value => value

def sortedItems : List Value → List Value
  | [] => []
  | item :: rest => sorted item :: sortedItems rest

def sortedFields : List (String × Value) → List (String × Value)
  | [] => []
  | (key, value) :: rest => (key, sorted value) :: sortedFields rest
end

/-- Zeros are equal whatever their sign. -/
def compareFloats (a b : Float) : Ordering :=
  if a.isNaN then .lt
  else if b.isNaN then .gt
  else if a < b then .lt
  else if b < a then .gt
  else .eq

/-- The place of a kind of values in the order. -/
def rank : Value → Nat
  | null => 0
  | boolean false => 1
  | boolean true => 2
  | integer _ | float _ | spelling _ => 3
  | string _ => 4
  | array _ => 5
  | object _ => 6

/-- The order of two numbers. -/
def compareNumbers : Value → Value → Ordering
  | integer a, integer b => compare a b
  | a, b => match a.float?, b.float? with
    | some a, some b => compareFloats a b
    | _, _ => .eq

mutual
/-- The order of values whose fields are sorted. -/
def compareSorted : Value → Value → Ordering
  | string a, string b => compare a b
  | array a, array b => compareItems a b
  | object a, object b =>
    (compareLists (a.map (·.1)) (b.map (·.1))).then (compareFields a b)
  | a, b =>
    if rank a = 3 && rank b = 3 then compareNumbers a b else compare (rank a) (rank b)
where compareLists : List String → List String → Ordering
  | [], [] => .eq
  | [], _ :: _ => .lt
  | _ :: _, [] => .gt
  | a :: as, b :: bs => (compare a b).then (compareLists as bs)

def compareItems : List Value → List Value → Ordering
  | [], [] => .eq
  | [], _ :: _ => .lt
  | _ :: _, [] => .gt
  | a :: as, b :: bs => (compareSorted a b).then (compareItems as bs)

/-- Compares the values only. -/
def compareFields : List (String × Value) → List (String × Value) → Ordering
  | (_, a) :: as, (_, b) :: bs => (compareSorted a b).then (compareFields as bs)
  | _, _ => .eq
end

/-- The order of values. -/
def order (a b : Value) : Ordering := compareSorted a.sorted b.sorted

/-- Whether two values are equal. -/
def same (a b : Value) : Bool := order a b = .eq

/-- Items in ascending order; equal ones keep their order. -/
def sortItems (items : List Value) : List Value := items.mergeSort fun a b => order a b ≠ .gt

end Value
end ApiTypings.Query
