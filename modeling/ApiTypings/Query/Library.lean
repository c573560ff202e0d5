/-
The filters that are functions of their input and of the values of their arguments.
-/
import ApiTypings.Json.Reader
import ApiTypings.Query.Access
import ApiTypings.Query.Matches

namespace ApiTypings.Query.Library

open Value

/-- The result of a filter on values. -/
abbrev Result := Except Signal Value

/-! ### Kinds of input -/

def text (value : Value) : Except Signal String :=
  match value with
  | .string text => .ok text
  | value => .error (.cannotUse value "string")

def items (value : Value) : Except Signal (List Value) :=
  match value with
  | .array items => .ok items
  | value => .error (.cannotUse value "array")

def float (value : Value) : Except Signal Float :=
  match value.float? with
  | some x => .ok x
  | none => .error (.cannotUse value "number")

/-- A string as it is, and any other value as JSON text. -/
def toText (value : Value) : String :=
  match value with
  | .string text => text
  | value => value.render

def kind : Value → String
  | .null => "null"
  | .boolean _ => "boolean"
  | .integer _ | .float _ | .spelling _ => "number"
  | .string _ => "string"
  | .array _ => "array"
  | .object _ => "object"

/-! ### Numbers -/

/-- A rounded number is a whole number if it fits. -/
def round (f : Float → Float) (value : Value) : Result :=
  match value with
  | .integer n => .ok (.integer n)
  | value => do
    let x := f (← float value)
    match Binary64.ofBits? x.toBits with
    | some m =>
      let n : Int := (m.numerator / m.denominator : Nat)
      let n := if x < 0.0 then -n else n
      return if FitsSigned n then .integer n else .float x
    | none => return .float x

/-- A function on floats. -/
def onFloat (f : Float → Float) (value : Value) : Result := do return .float (f (← float value))

/-- A function on pairs of floats. -/
def onFloats (f : Float → Float → Float) (a b : Value) : Result := do
  return .float (f (← float a) (← float b))

def length (value : Value) : Result :=
  match value with
  | .null => .ok (.integer 0)
  | .boolean _ => .error (.text (value.render ++ " has no length"))
  | .integer n => .ok (.integer n.natAbs)
  | .float x => .ok (.float x.abs)
  | .spelling _ => onFloat Float.abs value
  | .string text => .ok (ofNat text.length)
  | .array items => .ok (ofNat items.length)
  | .object fields => .ok (ofNat fields.length)

def absolute (value : Value) : Result :=
  match value with
  | .integer n => .ok (.integer n.natAbs)
  | value => do
    let x ← float value
    if x < 0.0 then value.negate else return value

/-- The number that a text spells. -/
def toNumber (value : Value) : Result :=
  match value with
  | .integer _ | .float _ | .spelling _ => .ok value
  | .string text =>
    match Json.read? text with
    | some (.number n) => .ok (ofJson (.number n))
    | _ => .error (.text ("cannot parse " ++ value.render ++ " as number"))
  | value => .error (.cannotUse value "number")

/-! ### Texts -/

def onText (f : String → String) (value : Value) : Result := do return .string (f (← text value))

/-- Whether the text begins with another. -/
def startsWith (value start : Value) : Result := do
  return .boolean ((← text value).startsWith (← text start))

/-- Whether the text ends with another. -/
def endsWith (value ending : Value) : Result := do
  return .boolean ((← text value).endsWith (← text ending))

/-- The text without another at its start. -/
def withoutStart (value start : Value) : Value :=
  match value, start with
  | .string text, .string start =>
    match Text.afterPrefix? start.toList text.toList with
    | some rest => .string (String.ofList rest)
    | none => value
  | _, _ => value

/-- The text without another at its end. -/
def withoutEnd (value ending : Value) : Value :=
  match value, ending with
  | .string text, .string ending =>
    match Text.afterPrefix? ending.toList.reverse text.toList.reverse with
    | some rest => .string (String.ofList rest.reverse)
    | none => value
  | _, _ => value

def trimStart (text : String) : String := String.ofList (text.toList.dropWhile Text.isBlank)

/-- Changes the letters of ASCII. -/
def mapAscii (f : Char → Char) (text : String) : String :=
  String.ofList (text.toList.map fun c => if c.toNat < 128 then f c else c)

/-- The code points of a text. -/
def explode (value : Value) : Result := do
  return .array ((← text value).toList.map fun c => ofNat c.toNat)

/-- The text of code points. -/
def implode (value : Value) : Result := do
  let chars ← (← items value).mapM fun item => do
    match item with
    | .integer n =>
      if 0 ≤ n ∧ n < 0x110000 ∧ ¬(0xD800 ≤ n ∧ n < 0xE000) then pure (Char.ofNat n.toNat)
      else throw (.text ("cannot use " ++ item.render ++ " as character"))
    | item => throw (.cannotUse item "integer")
  return .string (String.ofList chars)

def split (value separator : Value) : Result := do
  return .array ((splitText (← text value) (← text separator)).map .string)

/-- Whether `start` is at the front of `items`. -/
def beginsWith (start items : List Value) : Bool :=
  match start, items with
  | [], _ => true
  | _ :: _, [] => false
  | a :: start, b :: items => same a b && beginsWith start items

/-- The positions at which a part occurs. -/
def positionsFrom (part : List Value) (position : Nat) : List Value → List Value
  | [] => []
  | item :: rest =>
    let more := positionsFrom part (position + 1) rest
    if beginsWith part (item :: rest) then ofNat position :: more else more

/-- The positions of a text in a text, of a run of items, or of an item in an array. -/
def indices (value part : Value) : Result :=
  let chars (text : String) : List Value := text.toList.map fun c => ofNat c.toNat
  match value, part with
  | .null, _ => .ok .null
  | .string _, .string "" | .array _, .array [] => .ok (.array [])
  | .string text, .string part => .ok (.array (positionsFrom (chars part) 0 (chars text)))
  | .array items, .array part => .ok (.array (positionsFrom part 0 items))
  | .array items, part => .ok (.array (positionsFrom [part] 0 items))
  | value, part => .error (.cannotIndex value part)

/-- The text cut at the matches of an expression: the texts between them, the matches, or both. -/
def cut (between matched : Bool) (value expression flags : Value) : Result := do
  let subject ← text value
  let source ← text expression
  match MatchFlags.ofText? (← text flags) with
  | none => throw (.text ("invalid regex flag: " ++ flags.render))
  | some flags =>
    match NamedRegex.ofText? flags.reading source with
    | none => throw (.text ("invalid regex: " ++ source))
    | some regex =>
      return .array ((Matches.ofText flags regex subject).filterMap fun
        | .inl text => if between then some (.string text) else none
        | .inr found => if matched then some found else none)

/-! ### Formats -/

/-- The cells of a row. -/
def row (separator : String) (ofText : String → String) (value : Value) : Result := do
  let cells ← (← items value).mapM fun item => do
    match item with
    | .null => pure ""
    | .string text => pure (ofText text)
    | .array _ | .object _ => throw (.text ("cannot format " ++ item.render ++ " as cell"))
    | item => pure item.render
  return .string (separator.intercalate cells)

/-- Replaces characters by texts. -/
def substitute (f : Char → Option String) (text : String) : String :=
  String.join (text.toList.map fun c => (f c).getD c.toString)

def csv : Value → Result :=
  row "," fun text =>
    "\"" ++ substitute (fun c => if c = '"' then some "\"\"" else none) text ++ "\""

def tsv : Value → Result :=
  row "\t" <| substitute fun c =>
    if c = '\t' then some "\\t" else if c = '\n' then some "\\n"
    else if c = '\r' then some "\\r" else if c = '\\' then some "\\\\" else none

def html (value : Value) : Value :=
  .string (substitute (fun c =>
    if c = '<' then some "&lt;" else if c = '>' then some "&gt;" else if c = '&' then some "&amp;"
    else if c = '\'' then some "&#39;" else if c = '"' then some "&quot;" else none) (toText value))

/-- A word of a shell. -/
def shellWord (value : Value) : Except Signal String :=
  match value with
  | .string text => .ok ("'" ++ substitute (fun c => if c = '\'' then some "'\\''" else none) text ++ "'")
  | .array _ | .object _ => .error (.text ("cannot escape " ++ value.render ++ " for shell"))
  | value => .ok value.render

def shell (value : Value) : Result := do
  match value with
  | .array items => return .string (" ".intercalate (← items.mapM shellWord))
  | value => return .string (← shellWord value)

def upperHexDigit (n : Nat) : Char := if n < 10 then Char.ofNat (48 + n) else Char.ofNat (55 + n)

def uri (value : Value) : Value :=
  .string (String.join ((toText value).toUTF8.toList.map fun b =>
    let c := Char.ofNat b.toNat
    if c.isAlphanum || c = '-' || c = '_' || c = '.' || c = '~' then c.toString
    else String.ofList ['%', upperHexDigit (b.toNat / 16), upperHexDigit (b.toNat % 16)]))

def base64Digits : List Char :=
  "ABCDEFGHIJKLMNOPQRSTUVWXYZabcdefghijklmnopqrstuvwxyz0123456789+/".toList

def base64Digit (n : Nat) : Char := (base64Digits[n % 64]?).getD 'A'

/-- Three octets are four digits. -/
def base64Of : List Nat → List Char
  | a :: b :: c :: rest =>
    base64Digit (a / 4) :: base64Digit (a * 16 + b / 16) :: base64Digit (b * 4 + c / 64)
      :: base64Digit c :: base64Of rest
  | [a, b] => [base64Digit (a / 4), base64Digit (a * 16 + b / 16), base64Digit (b * 4), '=']
  | [a] => [base64Digit (a / 4), base64Digit (a * 16), '=', '=']
  | [] => []

def base64 (value : Value) : Value :=
  .string (String.ofList (base64Of ((toText value).toUTF8.toList.map UInt8.toNat)))

/-- The octets of groups of four digits. -/
def octetsOfBase64 : List Nat → List Nat
  | a :: b :: c :: d :: rest =>
    (a * 4 + b / 16) % 256 :: (b * 16 + c / 4) % 256 :: (c * 64 + d) % 256 :: octetsOfBase64 rest
  | [a, b, c] => [(a * 4 + b / 16) % 256, (b * 16 + c / 4) % 256]
  | [a, b] => [(a * 4 + b / 16) % 256]
  | _ => []

def fromBase64 (value : Value) : Result := do
  let chars := (toText value).toList.filter (· ≠ '=')
  match chars.mapM (base64Digits.idxOf? ·) with
  | none => throw (.text ("cannot decode " ++ value.render ++ " as base64"))
  | some digits =>
    let bytes := ByteArray.mk ((octetsOfBase64 digits).map Nat.toUInt8).toArray
    match String.fromUTF8? bytes with
    | some text => return .string text
    | none => throw (.text ("cannot decode " ++ value.render ++ " as base64"))

/-! ### Arrays and objects -/

def onItems (f : List Value → Value) (value : Value) : Result := do return f (← items value)

def reverse (value : Value) : Result :=
  match value with
  | .null => .ok (.array [])
  | .string text => .ok (.string (String.ofList text.toList.reverse))
  | value => onItems (fun items => .array items.reverse) value

/-- The keys in order. -/
def sortedKeys (value : Value) : Result := do return .array (sortItems (← value.keys))

/-- Whether there is a part under a key. -/
def has (value key : Value) : Result :=
  match value, key with
  | .array items, .integer n => .ok (.boolean (0 ≤ n && n < items.length))
  | .object fields, .string name => .ok (.boolean (Json.lookup name fields).isSome)
  | value, key => .error (.cannotIndex value key)

/-- Whether a text occurs in another. -/
def occursIn (part : List Char) : List Char → Bool
  | [] => part.isEmpty
  | c :: rest => (Text.afterPrefix? part (c :: rest)).isSome || occursIn part rest

mutual
/-- Whether a value contains another: a text part of it, an array for each item one that contains
it, an object under each key a value that contains the one there. -/
def contains (value : Value) : Value → Bool
  | .string part => match value with
    | .string text => occursIn part.toList text.toList
    | _ => false
  | .array parts => match value with
    | .array items => containsItems items parts
    | _ => false
  | .object parts => match value with
    | .object fields => containsFields fields parts
    | _ => false
  | part => same value part

def containsItems (items : List Value) : List Value → Bool
  | [] => true
  | part :: rest => items.any (contains · part) && containsItems items rest

def containsFields (fields : List (String × Value)) : List (String × Value) → Bool
  | [] => true
  | (key, part) :: rest =>
    ((Json.lookup key fields).any (contains · part)) && containsFields fields rest
end

mutual
/-- The items of an array with the arrays among them opened, down to a depth. -/
def flattened (depth : Nat) : List Value → List Value
  | [] => []
  | item :: rest => flattenedItem depth item ++ flattened depth rest

def flattenedItem (depth : Nat) : Value → List Value
  | .array items => match depth with
    | 0 => [.array items]
    | depth + 1 => flattened depth items
  | item => [item]
end

mutual
def nesting : Value → Nat
  | .array items => nestingOfItems items + 1
  | _ => 0

def nestingOfItems : List Value → Nat
  | [] => 0
  | item :: rest => max (nesting item) (nestingOfItems rest)
end

def flatten (value : Value) : Value :=
  .array (flattened (nesting value) (match value with
    | .array items => items
    | value => [value]))

def flattenTo (value depth : Value) : Result :=
  match depth with
  | .integer n =>
    if n < 0 then .error (.text "flatten depth must not be negative")
    else onItems (fun items => .array (flattened n.toNat items)) value
  | depth => .error (.cannotUse depth "integer")

/-- Rows become columns; short rows are filled up with null. -/
def transpose (value : Value) : Result := do
  let rows ← (← items value).mapM items
  let width := rows.foldl (fun width row => max width row.length) 0
  return .array ((List.range width).map fun n => .array (rows.map fun row => (row[n]?).getD .null))

/-- The fields as objects of a key and a value. -/
def toEntries (value : Value) : Result := do
  let keys ← value.keys
  let parts ← value.parts
  return .array ((keys.zip parts).map fun (key, part) => .object [("key", key), ("value", part)])

/-- The first of several fields that is there and not null. -/
def firstField (names : List String) (fields : List (String × Value)) : Value :=
  (names.findSome? fun name =>
    match Json.lookup name fields with
    | none | some .null => none
    | some value => some value).getD .null

/-- The field that an entry describes. -/
def entryField (value : Value) : Except Signal (String × Value) :=
  match value with
  | .object fields =>
    let content := firstField ["value", "v", "Value", "V"] fields
    match firstField ["key", "k", "name", "Name", "Key", "K"] fields with
    | .string name => .ok (name, content)
    | key => .error (.cannotUse key "string")
  | value => .error (.cannotIndex value (.string "key"))

/-- The object that entries describe. -/
def fromEntries (value : Value) : Result := do
  let fields ← (← value.parts).mapM entryField
  return .object (fields.foldl (fun found (key, part) => Json.insertField key part found) [])

/-- The value of the first or last of the items that are least or greatest by their keys. -/
def extreme (greatest : Bool) : List (Value × Value) → Option Value
  | [] => none
  | first :: rest =>
    some (rest.foldl (fun best item =>
      if greatest then (if order item.1 best.1 = .lt then best else item)
      else (if order item.1 best.1 = .lt then item else best)) first).2

/-- Items with their keys in the order of the keys. -/
def sortByKey (keyed : List (Value × Value)) : List (Value × Value) :=
  keyed.mergeSort fun a b => order a.1 b.1 ≠ .gt

/-- Neighbours with equal keys together. -/
def groups : List (Value × Value) → List (List Value)
  | [] => []
  | (_, item) :: [] => [[item]]
  | (key, item) :: (next, other) :: rest =>
    match groups ((next, other) :: rest) with
    | group :: more => if same key next then (item :: group) :: more else [item] :: group :: more
    | [] => [[item]]

/-- The position of a value in a sorted array, or where it would be, as a negative number. -/
def search (value wanted : Value) : Result := do
  let before := (← items value).takeWhile fun item => order item wanted = .lt
  let found := ((← items value)[before.length]?).any (same · wanted)
  return .integer (if found then before.length else -1 - before.length)

/-! ### Places -/

/-- The part at a place; parts of null are null. -/
def partAt (value : Value) (place : List Value) : Result :=
  place.foldlM (fun value key => match value with
    | .null => .ok .null
    | value => value.index key) value

/-- Sets the part at a place; null becomes whatever the place needs. -/
def setPart (part : Value) : List Value → Value → Result
  | [], _ => .ok part
  | .string name :: rest, .null => do return .object [(name, ← setPart part rest .null)]
  | .integer n :: rest, .null => do
    let inner ← setPart part rest .null
    if n < 0 then throw (.text ("index " ++ toString n ++ " is out of bounds"))
    return .array (List.replicate n.toNat .null ++ [inner])
  | .integer n :: rest, .array items => do
    if items.length ≤ n then
      let inner ← setPart part rest .null
      return .array (items ++ List.replicate (n.toNat - items.length) .null ++ [inner])
    else
      replaceIndex false (.integer n) (fun value => .ofExcept (setPart part rest value)) (.array items)
  | key :: rest, value => replaceIndex false key (fun value => .ofExcept (setPart part rest value)) value

/-- Takes out the parts at places, the last ones first. -/
def deleteParts (value places : Value) : Result := do
  (sortItems (← items places)).reverse.foldlM (fun value place => do
    let steps := (← items place).map fun key => (Step.index key, true)
    match ← (replaceAll (fun _ => .finished) steps value).head? with
    | some value => return value
    | none => return .null) value

/-! ### Names -/

inductive Native
  | nullary (f : Value → Result)
  | unary (f : Value → Value → Result)
  | binary (f : Value → Value → Value → Result)

namespace Native

def arity : Native → Nat
  | nullary _ => 0
  | unary _ => 1
  | binary _ => 2

/-- The result for an input, with as many arguments as the arity says. -/
def apply (native : Native) (arguments : List Value) (input : Value) : Result :=
  match native, arguments with
  | nullary f, [] => f input
  | unary f, [a] => f input a
  | binary f, [a, b] => f input a b
  | _, _ => .error (.text "wrong number of arguments")

end Native

/-- A filter that always succeeds. -/
def always (f : Value → Value) : Native := .nullary fun value => .ok (f value)

/-- The filters by name. -/
def natives : List (String × Native) := [
  ("null", always fun _ => .null),
  ("true", always fun _ => .boolean true),
  ("false", always fun _ => .boolean false),
  ("not", always fun value => .boolean !value.isTruthy),
  ("nan", always fun _ => .float (0.0 / 0.0)),
  ("infinite", always fun _ => .float (1.0 / 0.0)),
  ("type", always fun value => .string (kind value)),
  ("tostring", always fun value => .string (toText value)),
  ("tojson", always fun value => .string value.render),
  ("fromjson", .nullary fun value => do
    match Json.read? (← text value) with
    | some json => return ofJson json
    | none => throw (.text ("cannot parse " ++ value.render ++ " as JSON"))),
  ("tonumber", .nullary toNumber),
  ("length", .nullary length),
  ("utf8bytelength", .nullary fun value => do return ofNat (← text value).utf8ByteSize),
  ("abs", .nullary absolute),
  ("floor", .nullary (round Float.floor)),
  ("ceil", .nullary (round Float.ceil)),
  ("round", .nullary (round Float.round)),
  ("trunc", .nullary (onFloat fun x => if x < 0.0 then x.ceil else x.floor)),
  ("fabs", .nullary (onFloat Float.abs)),
  ("sqrt", .nullary (onFloat Float.sqrt)),
  ("cbrt", .nullary (onFloat Float.cbrt)),
  ("exp", .nullary (onFloat Float.exp)),
  ("exp2", .nullary (onFloat Float.exp2)),
  ("exp10", .nullary (onFloat fun x => Float.pow 10.0 x)),
  ("log", .nullary (onFloat Float.log)),
  ("log2", .nullary (onFloat Float.log2)),
  ("log10", .nullary (onFloat Float.log10)),
  ("sin", .nullary (onFloat Float.sin)),
  ("cos", .nullary (onFloat Float.cos)),
  ("tan", .nullary (onFloat Float.tan)),
  ("asin", .nullary (onFloat Float.asin)),
  ("acos", .nullary (onFloat Float.acos)),
  ("atan", .nullary (onFloat Float.atan)),
  ("sinh", .nullary (onFloat Float.sinh)),
  ("cosh", .nullary (onFloat Float.cosh)),
  ("tanh", .nullary (onFloat Float.tanh)),
  ("asinh", .nullary (onFloat Float.asinh)),
  ("acosh", .nullary (onFloat Float.acosh)),
  ("atanh", .nullary (onFloat Float.atanh)),
  ("pow", .binary fun _ => onFloats Float.pow),
  ("atan2", .binary fun _ => onFloats Float.atan2),
  ("fmod", .binary fun _ => onFloats floatRemainder),
  ("fmin", .binary fun _ => onFloats fun a b => if a < b || b.isNaN then a else b),
  ("fmax", .binary fun _ => onFloats fun a b => if b < a || b.isNaN then a else b),
  ("explode", .nullary explode),
  ("implode", .nullary implode),
  ("ascii", .nullary fun value => implode (.array [value])),
  ("ascii_downcase", .nullary (onText (mapAscii Char.toLower))),
  ("ascii_upcase", .nullary (onText (mapAscii Char.toUpper))),
  ("trim", .nullary (onText Text.trim)),
  ("ltrim", .nullary (onText trimStart)),
  ("rtrim", .nullary (onText Text.trimEnd)),
  ("startswith", .unary startsWith),
  ("endswith", .unary endsWith),
  ("ltrimstr", .unary fun value start => .ok (withoutStart value start)),
  ("rtrimstr", .unary fun value ending => .ok (withoutEnd value ending)),
  ("trimstr", .unary fun value part => .ok (withoutEnd (withoutStart value part) part)),
  ("split", .unary split),
  ("indices", .unary indices),
  ("matches", .binary (cut false true)),
  ("split_matches", .binary (cut true true)),
  ("split_", .binary (cut true false)),
  ("@text", always fun value => .string (toText value)),
  ("@json", always fun value => .string value.render),
  ("@csv", .nullary csv),
  ("@tsv", .nullary tsv),
  ("@html", always html),
  ("@sh", .nullary shell),
  ("@uri", always uri),
  ("@base64", always base64),
  ("@base64d", .nullary fromBase64),
  ("keys_unsorted", .nullary fun value => do return .array (← value.keys)),
  ("keys", .nullary sortedKeys),
  ("has", .unary has),
  ("contains", .unary fun value part => .ok (.boolean (contains value part))),
  ("reverse", .nullary reverse),
  ("sort", .nullary (onItems fun items => .array (sortItems items))),
  ("flatten", always flatten),
  ("flatten", .unary flattenTo),
  ("transpose", .nullary transpose),
  ("toarray", always fun value => match value with
    | .array _ => value
    | value => .array [value]),
  ("to_entries", .nullary toEntries),
  ("from_entries", .nullary fromEntries),
  ("bsearch", .unary search),
  ("getpath", .unary fun value place => do partAt value (← items place)),
  ("setpath", .binary fun value place part => do setPart part (← items place) value),
  ("delpaths", .unary deleteParts)]

/-- The filter with a name and a number of arguments. -/
def native? (name : String) (arity : Nat) : Option Native :=
  (natives.find? fun (found, native) => found = name && native.arity = arity).map (·.2)

end ApiTypings.Query.Library
