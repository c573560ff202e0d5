/-
Decoders: from JSON values to typed values, with the place and the cause of a failure.

A decoder reads one value.  A fault carries the way from the value that the decoder was
given to the value that is at fault; every combinator that goes down to a child puts
its step in front.  Decoding an object visits the fields in source order and stops at
the first fault, and only after that asks for fields that are missing.

An array is accepted in place of an object with known fields.  Its items are then the
values of the fields in the order of their declaration.
-/
import ApiTypings.Json.Printer
import ApiTypings.OpenApi.Schema
import ApiTypings.Text.Quoted

namespace ApiTypings

/-- One step down into a value. -/
inductive Step
  | key (key : String)
  | index (index : Nat)
  deriving DecidableEq

/-- The way down to a value: keys between points, positions in brackets; a point alone for the
value that decoding started from. -/
def renderPath : List Step → String
  | [] => "."
  | steps => go true steps
where
  go (isFirst : Bool) : List Step → String
    | [] => ""
    | .key key :: steps => (if isFirst then "" else ".") ++ key ++ go false steps
    | .index index :: steps => "[" ++ toString index ++ "]" ++ go false steps

/-- What is wrong with a value. -/
inductive Cause
  | wrongType (found : Json) (expected : String)
  | missingField (name : String)
  | unknownVariant (found : String) (known : List String)
  /-- an object where one with a single key is expected -/
  | notSingleKey
  /-- an array of the wrong length -/
  | wrongLength (length : Nat) (expected : String)
  /-- none of the alternatives of a place, which has a name as a whole -/
  | noVariant (choice : String)

/-- A value as it is called in messages. -/
def describe : Json → String
  | .null => "null"
  | .boolean value => "boolean \x60" ++ (if value then "true" else "false") ++ "\x60"
  | .number (.integer value) => "integer \x60" ++ toString value ++ "\x60"
  | .number value => "floating point \x60" ++ value.render ++ "\x60"
  | .string text => "string " ++ Text.quoted text
  | .array _ => "sequence"
  | .object _ => "map"

namespace Cause

def message : Cause → String
  | wrongType found expected => "invalid type: " ++ describe found ++ ", expected " ++ expected
  | missingField name => "missing field \x60" ++ name ++ "\x60"
  | unknownVariant found known =>
    "unknown variant \x60" ++ found ++ "\x60, expected one of "
      ++ ", ".intercalate (known.map fun name => "\x60" ++ name ++ "\x60")
  | notSingleKey => "invalid value: map, expected map with a single key"
  | wrongLength length expected => "invalid length " ++ toString length ++ ", expected " ++ expected
  | noVariant choice => "data did not match any variant of untagged enum " ++ choice

end Cause

/-- A failure to decode. -/
structure Fault where
  path : List Step
  cause : Cause

/-- Reads a value of type `α`. -/
abbrev Decoder (α : Type) := Json → Except Fault α

namespace Decoder

variable {α β σ : Type}

/-- Fails at the value that the decoder is given. -/
def fail (cause : Cause) : Except Fault α := .error ⟨[], cause⟩

/-- The result of decoding a child, as a result of its parent. -/
def within (step : Step) : Except Fault α → Except Fault α
  | .ok value => .ok value
  | .error fault => .error ⟨step :: fault.path, fault.cause⟩

def text : Decoder String
  | .string text => .ok text
  | found => fail (.wrongType found "a string")

def flag : Decoder Bool
  | .boolean value => .ok value
  | found => fail (.wrongType found "a boolean")

/-- Any value. -/
def raw : Decoder Json := .ok

/-- A null is read as nothing. -/
def optional (decoder : Decoder α) : Decoder (Option α)
  | .null => .ok none
  | value =>
    match decoder value with
    | .ok result => .ok (some result)
    | .error fault => .error fault

/-- The items from position `index` on. -/
def items (decoder : Decoder α) (index : Nat) : List Json → Except Fault (List α)
  | [] => .ok []
  | item :: rest => do
    let value ← within (.index index) (decoder item)
    let values ← items decoder (index + 1) rest
    return value :: values

def list (decoder : Decoder α) : Decoder (List α)
  | .array values => items decoder 0 values
  | found => fail (.wrongType found "a sequence")

def entriesOf (decoder : Decoder α) : List (String × Json) → Except Fault (List (String × α))
  | [] => .ok []
  | (key, value) :: rest => do
    let value ← within (.key key) (decoder value)
    let values ← entriesOf decoder rest
    return (key, value) :: values

/-- An object with any keys, in their order. -/
def entries (decoder : Decoder α) : Decoder (List (String × α))
  | .object fields => entriesOf decoder fields
  | found => fail (.wrongType found "a map")

/-- An object with a text under `$ref` is a reference, whatever else it holds; any other value is
tried as the thing itself, and if that fails the fault is here and not inside it. -/
def referable (decoder : Decoder α) : Decoder (Referable α) := fun value =>
  match (value.field? "$ref").bind Json.string? with
  | some pointer => .ok (.reference pointer)
  | none =>
    match decoder value with
    | .ok item => .ok (.inline item)
    | .error _ => fail (.noVariant "ReferenceOr")

/-- What happens where a field is missing. -/
inductive Presence
  /-- it is a fault -/
  | required
  /-- an object may leave the field out, an array may not -/
  | optional
  /-- the field may be left out -/
  | defaulted
  deriving DecidableEq

/-- One field of a record: its name, and how its value changes the record. -/
structure Field (σ : Type) where
  name : String
  presence : Presence
  read : Json → Except Fault (σ → σ)

/-- The field `name`, read by `decoder` and stored by `store`. -/
def field (name : String) (presence : Presence) (decoder : Decoder α) (store : α → σ → σ) :
    Field σ where
  name := name
  presence := presence
  read value :=
    match decoder value with
    | .ok result => .ok (store result)
    | .error fault => .error fault

/-- An object with known fields. -/
structure Record (σ : Type) where
  name : String
  fields : List (Field σ)
  /-- the record before any field is read -/
  empty : σ

namespace Record

/-- Reads the entries of an object in their order; unknown keys are skipped. -/
def readEntries (record : Record σ) : List (String × Json) → σ → Except Fault σ
  | [], value => .ok value
  | (key, item) :: rest, value =>
    match record.fields.find? fun field => field.name == key with
    | none => readEntries record rest value
    | some field => do
      let store ← within (.key key) (field.read item)
      readEntries record rest (store value)

/-- The first field in declaration order that must be there and is not. -/
def missing? (record : Record σ) (entries : List (String × Json)) : Option String :=
  (record.fields.find? fun field =>
    field.presence = .required && !(entries.any fun entry => entry.1 == field.name)).map (·.name)

/-- The record as it is called in messages. -/
def title (record : Record σ) : String := "struct " ++ record.name

/-- The number of fields as it is called in messages. -/
def arity (record : Record σ) : String :=
  record.title ++ " with "
    ++ (if record.fields.length = 1 then "1 element"
      else toString record.fields.length ++ " elements")

/-- Reads the items of an array from position `index` on as the values of `fields`. -/
def readItems (record : Record σ) (length index : Nat) :
    List (Field σ) → List Json → σ → Except Fault σ
  | [], [], value => .ok value
  | [], _ :: _, _ => fail (.wrongLength length "fewer elements in array")
  | field :: fields, [], value =>
    if field.presence = .defaulted then readItems record length (index + 1) fields [] value
    else fail (.wrongLength index record.arity)
  | field :: fields, item :: rest, value => do
    let store ← within (.index index) (field.read item)
    readItems record length (index + 1) fields rest (store value)

def decode (record : Record σ) : Decoder σ
  | .object entries => do
    let value ← readEntries record entries record.empty
    match record.missing? entries with
    | some name => fail (.missingField name)
    | none => .ok value
  | .array items => readItems record items.length 0 record.fields items record.empty
  | found => fail (.wrongType found record.title)

end Record
end Decoder
end ApiTypings
