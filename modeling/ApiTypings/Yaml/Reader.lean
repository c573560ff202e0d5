/-
Reading YAML text.

A tag that begins with an exclamation mark stays with its value; the four tags of the
core scalars demand a spelling of their kind, and any other tag makes a scalar a string.
Directly inside a tagged value the tags of the keys, like its own, are spent.

An alias stands for a copy of its node.  Copies of copies can grow beyond all bounds, and
an alias inside its own node has no finite value, so collections may be nested 128 deep
at most, and the number of copies is limited by the length of the document.  The nesting
limit is what the recursion runs on.
-/
import ApiTypings.Yaml.Node
import ApiTypings.Yaml.PlainScalar

namespace ApiTypings.Yaml

/-- How deep collections may be nested. -/
def nestingLimit : Nat := 128

/-- How many aliases may be followed for each part of a document. -/
def aliasFactor : Nat := 100

/-- A tag that stays with its value. -/
def isLocalTag (tag : String) : Bool := tag.startsWith "!"

/-- The name of a tag that stays with its value. -/
def localName (tag : String) : String :=
  match tag.toList with
  | '!' :: c :: rest => String.ofList (c :: rest)
  | _ => tag

namespace Value

/-- The value of a scalar whose tag is spent, or that has none. -/
def ofUntagged? (text : String) (isPlain : Bool) : Option Value :=
  if isPlain then ofPlain? text else some (.string text)

/-- The value of a scalar with one of the tags of the core scalars, and a string for any other. -/
def ofCoreTag? (tag text : String) : Option Value :=
  if tag = "tag:yaml.org,2002:bool" then (boolean? text).map .boolean
  else if tag = "tag:yaml.org,2002:int" then
    match readInteger text.toList with
    | .number value => some (.number (.integer value))
    | .tooLarge | .other => none
  else if tag = "tag:yaml.org,2002:float" then (float? text.toList).map .number
  else if tag = "tag:yaml.org,2002:null" then if isNull text then some .null else none
  else some (.string text)

/-- The value of a scalar. -/
def ofScalar? (spent : Bool) (tag : Option String) (text : String) (isPlain : Bool) : Option Value :=
  match tag with
  | none => ofUntagged? text isPlain
  | some tag =>
    if spent then ofUntagged? text isPlain
    else if isLocalTag tag then (ofUntagged? text isPlain).map (.tagged (localName tag))
    else ofCoreTag? tag text

/-- A collection with its tag, if the tag stays with it. -/
def withTag (spent : Bool) (tag : Option String) (value : Value) : Value :=
  match tag with
  | some tag => if !spent && isLocalTag tag then .tagged (localName tag) value else value
  | none => value

/-- A node in place of an alias, which uses up one of the aliases that may still be followed. -/
def follow (slots : List (Nat × Node Nat)) (spent : Bool) :
    Node Nat → StateT Nat Option (Bool × Node Nat)
  | .aliasOf slot => do
    match ← get with
    | 0 => failure
    | left + 1 =>
      set left
      match slots.lookup slot with
      | some node => return (false, node)
      | none => failure
  | node => return (spent, node)

/-- Adds an entry to a mapping in reverse; no two keys may be the same. -/
def addDistinct? (entries : List (Value × Value)) (key value : Value) : Option (List (Value × Value)) :=
  if (lookup? key entries).isSome then none else some ((key, value) :: entries)

/-- The value of a node that may hold collections nested `depth` deep. `spent` says that its own
tag does not count. -/
def ofNode (slots : List (Nat × Node Nat)) : Nat → Bool → Node Nat → StateT Nat Option Value
  | depth, spent, node => do
    let (spent, node) ← follow slots spent node
    match node with
    | .aliasOf _ => failure
    | .scalar properties text isPlain =>
      (ofScalar? spent properties.tag text isPlain : Option Value)
    | .sequence properties items =>
      match depth with
      | 0 => failure
      | depth + 1 =>
        let values ← items.mapM (ofNode slots depth false)
        return withTag spent properties.tag (.sequence values)
    | .mapping properties entries =>
      match depth with
      | 0 => failure
      | depth + 1 =>
        let spentKeys := spent || properties.tag.any isLocalTag
        let values ← entries.foldlM (fun values (key, value) => do
          let key ← ofNode slots depth spentKeys key
          let value ← ofNode slots depth false value
          (addDistinct? values key value : Option _)) []
        return withTag spent properties.tag (.mapping values.reverse)

/-- The value that a text describes, if it is YAML. -/
def read? (text : String) : Option Value := do
  let tokens ← Token.ofText? text
  let (root, _) ← (← Node.ofTokens? tokens).number.run []
  let (value, _) ← (ofNode root.slotContents nestingLimit false root).run (aliasFactor * root.extent)
  return value

end Value
end ApiTypings.Yaml
