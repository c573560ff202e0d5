/-
Parts of values, and values with parts replaced.

An array is indexed by whole numbers, which count from its end when they are negative,
and an object by strings; a part that is missing is null.  Slices of arrays and strings
are bounded by whole numbers that may lie outside.

A part is replaced by the first output of a filter, or taken out when there is none.
When a field is taken out of an object, the last field moves into its place.  Where all
parts are replaced at once, an array takes every output.
-/
import ApiTypings.Query.Arithmetic

namespace ApiTypings.Query

/-- The part of a value that a step of a path leads to, with its bounds calculated. -/
inductive Step
  | index (key : Value)
  | slice (start stop : Option Value)
  | each

namespace Value

/-! ### Reading parts -/

/-- A position in an array of the given size, if it lies inside. -/
def position? (size : Nat) (index : Int) : Option Nat :=
  let n := if index < 0 then index + size else index
  if 0 ≤ n ∧ n < size then some n.toNat else none

/-- A bound of a slice, brought into the range from zero to `size`. -/
def bound (size : Nat) (index : Int) : Nat :=
  min size (if index < 0 then index + size else index).toNat

/-- A whole number that is a position. -/
def toIndex : Value → Except Signal Int
  | integer n => .ok n
  | value => .error (.cannotUse value "integer")

/-- The first position of a slice and its length. -/
def sliceBounds (size : Nat) (start stop : Option Value) : Except Signal (Nat × Nat) := do
  let start ← start.mapM toIndex
  let stop ← stop.mapM toIndex
  let first := (start.map (bound size)).getD 0
  let last := (stop.map (bound size)).getD size
  return (first, last - first)

/-- A slice of an array or a string. -/
def slice (start stop : Option Value) : Value → Except Signal Value
  | array items => do
    let (first, count) ← sliceBounds items.length start stop
    return array ((items.drop first).take count)
  | string text => do
    let chars := text.toList
    let (first, count) ← sliceBounds chars.length start stop
    return string (String.ofList ((chars.drop first).take count))
  | value => .error (.cannotUse value "rangeable (array or string)")

/-- The bounds that an object stands for where an index is expected. -/
def boundsOf (fields : List (String × Value)) : Option Value × Option Value :=
  (Json.lookup "start" fields, Json.lookup "end" fields)

/-- The part under an index. -/
def index (value key : Value) : Except Signal Value :=
  match value, key with
  | array items, integer n => .ok (((position? items.length n).bind (items[·]?)).getD null)
  | array _, object bounds | string _, object bounds =>
    value.slice (boundsOf bounds).1 (boundsOf bounds).2
  | object fields, string name => .ok ((Json.lookup name fields).getD null)
  | array _, key | object _, key => .error (.cannotIndex value key)
  | value, _ => .error (.cannotUse value "iterable (array or object)")

/-- All parts of an array or an object. -/
def parts : Value → Except Signal (List Value)
  | array items => .ok items
  | object fields => .ok (fields.map (·.2))
  | value => .error (.cannotUse value "iterable (array or object)")

/-- The keys of all parts, in their order. -/
def keys : Value → Except Signal (List Value)
  | array items => .ok ((List.range items.length).map ofNat)
  | object fields => .ok (fields.map fun field => string field.1)
  | value => .error (.cannotUse value "iterable (array or object)")

/-- The parts that a step leads to. -/
def follow (value : Value) : Step → Outputs Value
  | .index key => .ofExcept (value.index key)
  | .slice start stop => .ofExcept (value.slice start stop)
  | .each => match value.parts with
    | .ok items => .ofList items
    | .error signal => .stopped signal

/-- The parts that a step leads to, each with the index that leads to it alone. -/
def followLocated (value : Value) : Step → Outputs (Value × Value)
  | .index key => .ofExcept ((value.index key).map fun part => (key, part))
  | .slice start stop =>
    let key := object ((start.map fun n => ("start", n)).toList ++ (stop.map fun n => ("end", n)).toList)
    .ofExcept ((value.slice start stop).map fun part => (key, part))
  | .each => match value.keys, value.parts with
    | .ok keys, .ok items => .ofList (keys.zip items)
    | .error signal, _ | _, .error signal => .stopped signal

/-! ### Replacing parts -/

/-- The fields without those of a key; the last field moves into its place. -/
def swapRemove (name : String) : List (String × Value) → List (String × Value)
  | [] => []
  | (key, value) :: rest =>
    if key = name then
      match rest.getLast? with
      | some last => last :: rest.dropLast
      | none => []
    else (key, value) :: swapRemove name rest

/-- What comes out where a step leads nowhere: the value as it is if the step is lenient. -/
def refuse (lenient : Bool) (value : Value) (signal : Signal) : Except Signal Value :=
  if lenient then .ok value else .error signal

/-- Replaces the items of a slice by those of an array. -/
def replaceSlice (lenient : Bool) (start stop : Option Value) (f : Value → Outputs Value)
    (value : Value) : Except Signal Value :=
  match value with
  | array items =>
    match sliceBounds items.length start stop with
    | .error signal => refuse lenient value signal
    | .ok (first, count) => do
      let inner := array ((items.drop first).take count)
      let replacement ← match ← (f inner).head? with
        | some (array items) => pure items
        | some value => throw (.cannotUse value "array")
        | none => pure []
      return array (items.take first ++ replacement ++ items.drop (first + count))
  | value => refuse lenient value (.cannotUse value "array")

/-- Replaces the part under an index. -/
def replaceIndex (lenient : Bool) (key : Value) (f : Value → Outputs Value) (value : Value) :
    Except Signal Value :=
  match value, key with
  | array _, object bounds | string _, object bounds =>
    replaceSlice lenient (boundsOf bounds).1 (boundsOf bounds).2 f value
  | object fields, string name => do
    match ← (f ((Json.lookup name fields).getD null)).head? with
    | some part => return object (Json.insertField name part fields)
    | none => return object (swapRemove name fields)
  | object _, key => refuse lenient value (.cannotIndex value key)
  | array items, key =>
    match key.toIndex with
    | .error signal => refuse lenient value signal
    | .ok n =>
      match position? items.length n with
      | none => refuse lenient value (.text ("index " ++ key.render ++ " is out of bounds"))
      | some n => do
        match ← (f ((items[n]?).getD null)).head? with
        | some part => return array (items.set n part)
        | none => return array (items.eraseIdx n)
  | value, _ => refuse lenient value (.cannotUse value "iterable (array or object)")

/-- Replaces all parts. -/
def replaceEach (lenient : Bool) (f : Value → Outputs Value) : Value → Except Signal Value
  | array items => do return array (← ((Outputs.ofList items).bind f).toList)
  | object fields => do
    let fields ← fields.mapM fun (key, value) => do
      return (← (f value).head?).map fun part => (key, part)
    return object (fields.filterMap id)
  | value => refuse lenient value (.cannotUse value "iterable (array or object)")

/-- Replaces the parts that a step leads to. -/
def replace (step : Step) (lenient : Bool) (f : Value → Outputs Value) (value : Value) :
    Except Signal Value :=
  match step with
  | .index key => replaceIndex lenient key f value
  | .slice start stop => replaceSlice lenient start stop f value
  | .each => replaceEach lenient f value

/-! ### Several steps

Each step may be lenient: where it leads nowhere, nothing comes out, and nothing is
replaced.  What fails further inside is not forgiven.
-/

/-- The values that several steps lead to. -/
def followAll : List (Step × Bool) → Value → Outputs Value
  | [], value => .last value
  | (step, lenient) :: rest, value =>
    let parts := value.follow step
    let parts := if lenient then parts.attempt fun _ => .finished else parts
    parts.bind (followAll rest)

/-- The same as `followAll`, with the indices behind `place` that lead to each value. -/
def followAllLocated :
    List (Step × Bool) → List Value → Value → Outputs (List Value × Value)
  | [], place, value => .last (place, value)
  | (step, lenient) :: rest, place, value =>
    let parts := value.followLocated step
    let parts := if lenient then parts.attempt fun _ => .finished else parts
    parts.bind fun (key, part) => followAllLocated rest (place ++ [key]) part

/-- Replaces what several steps lead to. -/
def replaceAll (f : Value → Outputs Value) : List (Step × Bool) → Value → Outputs Value
  | [], value => f value
  | (step, lenient) :: rest, value =>
    .ofExcept (value.replace step lenient (replaceAll f rest))

end Value
end ApiTypings.Query
