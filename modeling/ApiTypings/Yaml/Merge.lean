/-
Merge keys.

The entry `<<` of a mapping is taken out, and the entries of the mapping that it holds,
or of the mappings in a sequence, are added where the key is missing: own entries win,
and earlier mappings win over later ones.  The last entry moves into the place of the one
taken out.  Afterwards the values are visited, so what has been added is merged inside,
but a `<<` that has been added stays.

Of several faults the one that is met first counts, and the children of a collection are
visited from the last to the first.
-/
import ApiTypings.Yaml.Value

namespace ApiTypings.Yaml

/-- Why a document cannot be merged. -/
inductive MergeFailure
  /-- something other than a mapping or a sequence is to be merged -/
  | scalar
  /-- a sequence holds something other than mappings -/
  | scalarInSequence
  | sequenceInSequence
  | tagged
  deriving DecidableEq, Repr

namespace MergeFailure

def cause : MergeFailure → String
  | scalar => "expected a mapping or list of mappings for merging, but found scalar"
  | scalarInSequence => "expected a mapping for merging, but found scalar"
  | sequenceInSequence => "expected a mapping for merging, but found sequence"
  | tagged => "unexpected tagged value in merge"

def message (failure : MergeFailure) : String :=
  "failed to apply YAML merge keys: " ++ failure.cause

end MergeFailure

namespace Value

/-- The key whose value is merged. -/
def mergeKey : Value := .string "<<"

/-- Takes out the entry of a key; the last entry moves into its place. -/
def swapRemove (key : Value) : List (Value × Value) → Option (Value × List (Value × Value))
  | [] => none
  | (k, value) :: rest =>
    if same k key then
      some (value, match rest.getLast? with
        | some last => last :: rest.dropLast
        | none => [])
    else (swapRemove key rest).map fun (found, rest) => (found, (k, value) :: rest)

/-- Adds an entry unless its key is present. -/
def addMissing (entries : List (Value × Value)) (entry : Value × Value) : List (Value × Value) :=
  if (lookup? entry.1 entries).isSome then entries else entries ++ [entry]

/-- The entries of an item of a sequence that is merged. -/
def mergedItem : Value → Except MergeFailure (List (Value × Value))
  | .mapping entries => .ok entries
  | .sequence _ => .error .sequenceInSequence
  | .tagged .. => .error .tagged
  | _ => .error .scalarInSequence

/-- The entries that the value of a merge key stands for. -/
def mergedEntries : Value → Except MergeFailure (List (Value × Value))
  | .mapping entries => .ok entries
  | .sequence items => do return (← items.mapM mergedItem).flatten
  | .tagged .. => .error .tagged
  | _ => .error .scalar

/-- A mapping with its own merge key applied. -/
def mergeEntries (entries : List (Value × Value)) : Except MergeFailure (List (Value × Value)) :=
  match swapRemove mergeKey entries with
  | none => .ok entries
  | some (merged, rest) => do return (← mergedEntries merged).foldl addMissing rest

/-- Applies `f` to the members of a list from the last to the first. -/
def mapFromLast {α β : Type} (f : α → Except MergeFailure β) (items : List α) :
    Except MergeFailure (List β) :=
  items.foldr (fun item rest => do
    let rest ← rest
    return (← f item) :: rest) (.ok [])

/-- Applies the merge keys of a value down to a depth. -/
def mergeTo : Nat → Value → Except MergeFailure Value
  | 0, value => .ok value
  | depth + 1, .mapping entries => do
    let entries ← mergeEntries entries
    return .mapping (← mapFromLast (fun (key, value) => do
      return (key, ← mergeTo depth value)) entries)
  | depth + 1, .sequence items => do return .sequence (← mapFromLast (mergeTo depth) items)
  | depth + 1, .tagged tag value => do return .tagged tag (← mergeTo depth value)
  | _ + 1, value => .ok value

/-- The value with its merge keys applied. -/
def merge (value : Value) : Except MergeFailure Value := mergeTo value.depth value

end Value
end ApiTypings.Yaml
