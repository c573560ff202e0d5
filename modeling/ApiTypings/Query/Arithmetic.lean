/-
Arithmetic on values.

Whole numbers stay whole as long as the result fits 64 bits, except that a division gives
a float.  Null is neutral for addition.  Strings, arrays and objects have operations of
their own: adding joins them, subtracting takes the items of one array out of another,
multiplying repeats strings and merges objects, and dividing cuts strings.
-/
import ApiTypings.Query.Outputs
import ApiTypings.Text.Blank

namespace ApiTypings.Query

inductive Operator
  | add
  | subtract
  | multiply
  | divide
  | remainder
  deriving DecidableEq, Repr

namespace Operator

def sign : Operator → String
  | add => "+"
  | subtract => "-"
  | multiply => "*"
  | divide => "/"
  | remainder => "%"

end Operator

namespace Signal

def cannotCalculate (a : Value) (op : Operator) (b : Value) : Signal :=
  text ("cannot calculate " ++ a.render ++ " " ++ op.sign ++ " " ++ b.render)

def cannotUse (value : Value) (role : String) : Signal :=
  text ("cannot use " ++ value.render ++ " as " ++ role)

def cannotIndex (value index : Value) : Signal :=
  text ("cannot index " ++ value.render ++ " with " ++ index.render)

end Signal

namespace Value

/-- What is left of the magnitude `a` after taking away `b` as often as possible. -/
def remainderMagnitude (a b : Binary64) : Option Binary64 :=
  Binary64.ofRatio? ((a.numerator * b.denominator) % (b.numerator * a.denominator))
    (a.denominator * b.denominator)

/-- The remainder of floats has the sign of the dividend. -/
def floatRemainder (a b : Float) : Float :=
  match Binary64.ofBits? a.toBits, Binary64.ofBits? b.toBits with
  | some x, some y =>
    if y.significand = 0 then 0.0 / 0.0
    else match remainderMagnitude x y with
      | some r => Float.ofBits (r.toBits ||| (a.toBits &&& 0x8000000000000000))
      | none => a
  | some _, none => if b.isNaN then b else a
  | none, _ => 0.0 / 0.0

/-- The text `count` times in a row. -/
def repeatText (text : String) (count : Int) : Value :=
  if 0 < count then string (String.join (List.replicate count.toNat text)) else null

/-- Cuts at the occurrences of a separator that is not empty, from the left; `piece` is what has
been read of the current piece, in reverse. -/
def splitFrom (separator piece : List Char) : List Char → List (List Char)
  | [] => [piece.reverse]
  | c :: rest =>
    match Text.afterPrefix? separator (c :: rest) with
    | some after =>
      if after.length ≤ rest.length then piece.reverse :: splitFrom separator [] after
      else [piece.reverse]
    | none => splitFrom separator (c :: piece) rest
termination_by text => text.length
decreasing_by
  all_goals simp only [List.length_cons]
  all_goals omega

/-- The pieces between the occurrences of a separator; an empty separator cuts between all
characters. -/
def splitText (text separator : String) : List String :=
  if separator = "" then text.toList.map String.singleton
  else (splitFrom separator.toList [] text.toList).map String.ofList

mutual
/-- The right fields over the left ones; objects under the same key are merged. -/
def mergeFields (left : List (String × Value)) :
    List (String × Value) → List (String × Value)
  | [] => left
  | (key, value) :: rest => mergeFields (Json.insertField key (mergeOver (Json.lookup key left) value) left) rest

/-- A value over the one that was there before. -/
def mergeOver (before : Option Value) : Value → Value
  | object fields => match before with
    | some (object left) => object (mergeFields left fields)
    | _ => object fields
  | value => value
end

/-- A whole number, or its approximation where it does not fit. -/
def wholeOr (n : Int) (approximation : Float) : Value :=
  if FitsSigned n then integer n else float approximation

/-- Applies an operation to two numbers. -/
def calculateNumbers (op : Operator) (a b : Value) : Option Value :=
  match a, b with
  | integer x, integer y =>
    match op with
    | .add => some (wholeOr (x + y) (Float.ofInt x + Float.ofInt y))
    | .subtract => some (wholeOr (x - y) (Float.ofInt x - Float.ofInt y))
    | .multiply => some (wholeOr (x * y) (Float.ofInt x * Float.ofInt y))
    | .divide => some (float (Float.ofInt x / Float.ofInt y))
    | .remainder => if y = 0 then none else some (integer (Int.tmod x y))
  | a, b => do
    let x ← a.float?
    let y ← b.float?
    return float <| match op with
      | .add => x + y
      | .subtract => x - y
      | .multiply => x * y
      | .divide => x / y
      | .remainder => floatRemainder x y

/-- Applies an operation. -/
def calculate (op : Operator) (a b : Value) : Except Signal Value :=
  match op, a, b with
  | .add, null, b => .ok b
  | .add, a, null => .ok a
  | .add, string a, string b => .ok (string (a ++ b))
  | .add, array a, array b => .ok (array (a ++ b))
  | .add, object a, object b =>
    .ok (object (b.foldl (fun fields (key, value) => Json.insertField key value fields) a))
  | .subtract, array a, array b => .ok (array (a.filter fun item => !b.any (same item)))
  | .multiply, string text, integer n => .ok (repeatText text n)
  | .multiply, integer n, string text => .ok (repeatText text n)
  | .multiply, object a, object b => .ok (object (mergeFields a b))
  | .divide, string a, string b => .ok (array ((splitText a b).map string))
  | op, a, b =>
    match calculateNumbers op a b with
    | some value => .ok value
    | none => .error (.cannotCalculate a.calculated op b.calculated)

/-- The opposite number. -/
def negate : Value → Except Signal Value
  | integer n => .ok (wholeOr (-n) (-Float.ofInt n))
  | value => match value.float? with
    | some x => .ok (float (-x))
    | none => .error (.cannotUse value "number")

end Value
end ApiTypings.Query
