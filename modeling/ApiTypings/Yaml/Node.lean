/-
The tree that YAML text describes, before its scalars are resolved.

The tokens are read by recursive descent.  Where a key, a value or an entry is missing
there is an empty plain scalar.  Every call takes one turn, and between two tokens there
are at most three calls that take none, so four turns a token are enough.

An anchor names a slot, and an alias stands for the node in its slot.  A name that is
new gets a slot of its own.  A name that is taken again moves to the slot that the next
new name gets as well, so that the later of the two nodes in it is meant by both.
-/
import ApiTypings.Yaml.Token

namespace ApiTypings.Yaml

/-- What may stand before a node. Anchors are names or slots. -/
structure Properties (α : Type) where
  anchor : Option α := none
  tag : Option String := none

/-- A node; `α` is what anchors and aliases are, names or slots. -/
inductive Node (α : Type)
  | aliasOf (target : α)
  | scalar (properties : Properties α) (text : String) (isPlain : Bool)
  | sequence (properties : Properties α) (items : List (Node α))
  | mapping (properties : Properties α) (entries : List (Node α × Node α))

namespace Node

/-- What stands for a missing node. -/
def missing {α : Type} : Node α := .scalar {} "" true

/-! ### Reading tokens -/

/-- The tag that a handle and the text behind it stand for. -/
def tagOf? (handles : List (String × String)) (handle suffix : String) : Option String :=
  if handle = "" then some suffix else (Json.lookup handle handles).map (· ++ suffix)

/-- An anchor and a tag, in either order. -/
def properties? (handles : List (String × String)) :
    List Token → Option (Properties String × List Token)
  | .anchor name :: .tag handle suffix :: rest => do
    return ({ anchor := name, tag := ← tagOf? handles handle suffix }, rest)
  | .tag handle suffix :: .anchor name :: rest => do
    return ({ anchor := name, tag := ← tagOf? handles handle suffix }, rest)
  | .anchor name :: rest => some ({ anchor := name }, rest)
  | .tag handle suffix :: rest => do return ({ tag := ← tagOf? handles handle suffix }, rest)
  | rest => some ({}, rest)

/-- Whether the next token is one of `ends`. -/
def endsAt (ends : List Token) (tokens : List Token) : Bool := tokens.head?.any ends.contains

mutual
/-- A node. Blocks are read only where `block` holds, and a sequence without an indentation of its
own only where `indentless` holds. -/
def read (handles : List (String × String)) :
    Nat → Bool → Bool → List Token → Option (Node String × List Token)
  | 0, _, _, _ => none
  | _ + 1, _, _, .aliasOf name :: rest => some (.aliasOf name, rest)
  | turns + 1, block, indentless, tokens => do
    let (properties, tokens) ← properties? handles tokens
    match tokens with
    | .scalar text isPlain :: rest =>
      if properties.tag = some "!" then
        return (.scalar { properties with tag := none } text true, rest)
      return (.scalar properties text isPlain, rest)
    | .flowSequenceStart :: rest =>
      (readFlowItems handles turns true [] rest).map fun (items, rest) =>
        (.sequence properties items, rest)
    | .flowMappingStart :: rest =>
      (readFlowEntries handles turns true [] rest).map fun (entries, rest) =>
        (.mapping properties entries, rest)
    | tokens =>
      if indentless && endsAt [.blockEntry] tokens then
        (readIndentlessItems handles turns [] tokens).map fun (items, rest) =>
          (.sequence properties items, rest)
      else if block && endsAt [.blockSequenceStart] tokens then
        (readBlockItems handles turns [] tokens.tail).map fun (items, rest) =>
          (.sequence properties items, rest)
      else if block && endsAt [.blockMappingStart] tokens then
        (readBlockEntries handles turns [] tokens.tail).map fun (entries, rest) =>
          (.mapping properties entries, rest)
      else if properties.anchor.isSome || properties.tag.isSome then
        some (.scalar properties "" true, tokens)
      else none

/-- A node, or a missing one where one of `ends` comes next. -/
def readUnless (handles : List (String × String)) :
    Nat → List Token → Bool → Bool → List Token → Option (Node String × List Token)
  | 0, _, _, _, _ => none
  | turns + 1, ends, block, indentless, tokens =>
    if endsAt ends tokens then some (missing, tokens)
    else read handles turns block indentless tokens

/-- The entries of a block sequence and its end. -/
def readBlockItems (handles : List (String × String)) :
    Nat → List (Node String) → List Token → Option (List (Node String) × List Token)
  | turns + 1, items, .blockEntry :: rest => do
    let (item, rest) ← readUnless handles turns [.blockEntry, .blockEnd] true false rest
    readBlockItems handles turns (item :: items) rest
  | _ + 1, items, .blockEnd :: rest => some (items.reverse, rest)
  | _, _, _ => none

/-- The entries of a sequence that is indented like the mapping around it. -/
def readIndentlessItems (handles : List (String × String)) :
    Nat → List (Node String) → List Token → Option (List (Node String) × List Token)
  | 0, _, _ => none
  | turns + 1, items, .blockEntry :: rest => do
    let (item, rest) ←
      readUnless handles turns [.blockEntry, .key, .value, .blockEnd] true false rest
    readIndentlessItems handles turns (item :: items) rest
  | _ + 1, items, rest => some (items.reverse, rest)

/-- The entries of a block mapping and its end. -/
def readBlockEntries (handles : List (String × String)) :
    Nat → List (Node String × Node String) → List Token →
      Option (List (Node String × Node String) × List Token)
  | turns + 1, entries, .key :: rest => do
    let (key, rest) ← readUnless handles turns [.key, .value, .blockEnd] true true rest
    let (value, rest) ← readValue handles turns [.key, .value, .blockEnd] true rest
    readBlockEntries handles turns ((key, value) :: entries) rest
  | _ + 1, entries, .blockEnd :: rest => some (entries.reverse, rest)
  | _, _, _ => none

/-- A value behind its colon; without a colon the value is missing. -/
def readValue (handles : List (String × String)) :
    Nat → List Token → Bool → List Token → Option (Node String × List Token)
  | turns + 1, ends, block, .value :: rest => readUnless handles turns ends block block rest
  | _ + 1, _, _, rest => some (missing, rest)
  | 0, _, _, _ => none

/-- The items of a bracketed sequence and its end. A key makes an item a mapping of one entry;
where the key is missing, the token behind the question mark is lost. -/
def readFlowItems (handles : List (String × String)) :
    Nat → Bool → List (Node String) → List Token → Option (List (Node String) × List Token)
  | 0, _, _, _ => none
  | _ + 1, _, items, .flowSequenceEnd :: rest => some (items.reverse, rest)
  | turns + 1, first, items, tokens => do
    guard (first || endsAt [.flowEntry] tokens)
    match if first then tokens else tokens.tail with
    | .flowSequenceEnd :: rest => return (items.reverse, rest)
    | .key :: rest =>
      let (key, rest) ←
        if endsAt [.value, .flowEntry, .flowSequenceEnd] rest then some (missing, rest.tail)
        else read handles turns false false rest
      let (value, rest) ← readValue handles turns [.flowEntry, .flowSequenceEnd] false rest
      readFlowItems handles turns false (.mapping {} [(key, value)] :: items) rest
    | rest =>
      let (item, rest) ← read handles turns false false rest
      readFlowItems handles turns false (item :: items) rest

/-- The entries of a bracketed mapping and its end. An entry without a key token is a key without a
value. -/
def readFlowEntries (handles : List (String × String)) :
    Nat → Bool → List (Node String × Node String) → List Token →
      Option (List (Node String × Node String) × List Token)
  | 0, _, _, _ => none
  | _ + 1, _, entries, .flowMappingEnd :: rest => some (entries.reverse, rest)
  | turns + 1, first, entries, tokens => do
    guard (first || endsAt [.flowEntry] tokens)
    match if first then tokens else tokens.tail with
    | .flowMappingEnd :: rest => return (entries.reverse, rest)
    | .key :: rest =>
      let (key, rest) ←
        readUnless handles turns [.value, .flowEntry, .flowMappingEnd] false false rest
      let (value, rest) ← readValue handles turns [.flowEntry, .flowMappingEnd] false rest
      readFlowEntries handles turns false ((key, value) :: entries) rest
    | rest =>
      let (key, rest) ← read handles turns false false rest
      readFlowEntries handles turns false ((key, missing) :: entries) rest
end

/-- The handles that the directives before a document define, and what follows them. A version is
given at most once, and no handle twice. -/
def directives? : Bool → List (String × String) → List Token →
    Option (List (String × String) × List Token)
  | versioned, handles, .version major minor :: rest => do
    guard (!versioned && major = 1 && (minor = 1 || minor = 2))
    directives? true handles rest
  | versioned, handles, .tagHandle handle expansion :: rest => do
    guard (Json.lookup handle handles).isNone
    directives? versioned (handles ++ [(handle, expansion)]) rest
  | _, handles, rest => some (handles, rest)

/-- The handles that need no directive. -/
def commonHandles : List (String × String) := [("!", "!"), ("!!", "tag:yaml.org,2002:")]

/-- The only document of a text, with nothing but end markers behind it. -/
def ofTokens? (tokens : List Token) : Option (Node String) := do
  let turns := 4 * (tokens.length + 1)
  let (node, rest) ←
    if tokens.isEmpty then some (missing, tokens)
    else if tokens.head?.any fun
        | .version .. | .tagHandle .. | .documentStart => true
        | _ => false then do
      let (handles, rest) ← directives? false [] tokens
      guard (endsAt [.documentStart] rest)
      match rest.tail with
      | [] | .version .. :: _ | .tagHandle .. :: _ | .documentStart :: _ | .documentEnd :: _ =>
        pure (missing, rest.tail)
      | content => read (handles ++ commonHandles) turns true false content
    else read commonHandles turns true false tokens
  guard (rest.all (· = .documentEnd))
  return node

/-! ### Slots -/

/-- The slots of the names that have been defined so far. -/
abbrev Slots := List (String × Nat)

/-- Moves a name to the slot that the next new name gets. -/
def Slots.define (name : String) (slots : Slots) : Slots :=
  Json.insertField name slots.length slots

/-- Replaces an anchor by its slot. -/
def numberProperties (properties : Properties String) : StateT Slots Option (Properties Nat) := do
  match properties.anchor with
  | none => return { tag := properties.tag }
  | some name =>
    let slot := (← get).length
    modify (Slots.define name)
    return { anchor := slot, tag := properties.tag }

mutual
/-- Replaces names by slots, in the order of the text. An alias needs a name defined before it. -/
def number : Node String → StateT Slots Option (Node Nat)
  | .aliasOf name => do
    match Json.lookup name (← get) with
    | some slot => return .aliasOf slot
    | none => failure
  | .scalar properties text isPlain => do
    return .scalar (← numberProperties properties) text isPlain
  | .sequence properties items => do
    let properties ← numberProperties properties
    return .sequence properties (← numberItems items)
  | .mapping properties entries => do
    let properties ← numberProperties properties
    return .mapping properties (← numberEntries entries)

def numberItems : List (Node String) → StateT Slots Option (List (Node Nat))
  | [] => return []
  | item :: rest => do
    let item ← number item
    return item :: (← numberItems rest)

def numberEntries : List (Node String × Node String) → StateT Slots Option (List (Node Nat × Node Nat))
  | [] => return []
  | (key, value) :: rest => do
    let key ← number key
    let value ← number value
    return (key, value) :: (← numberEntries rest)
end

/-- What stands before a node that is no alias. -/
def anchor? {α : Type} : Node α → Option α
  | .aliasOf _ => none
  | .scalar properties .. | .sequence properties _ | .mapping properties _ => properties.anchor

mutual
/-- The nodes in slots, each before those inside it, in front of `found`. -/
def anchored (node : Node Nat) (found : List (Nat × Node Nat)) : List (Nat × Node Nat) :=
  let found := match node with
    | .aliasOf _ | .scalar .. => found
    | .sequence _ items => anchoredItems items found
    | .mapping _ entries => anchoredEntries entries found
  match node.anchor? with
  | some slot => (slot, node) :: found
  | none => found

def anchoredItems : List (Node Nat) → List (Nat × Node Nat) → List (Nat × Node Nat)
  | [], found => found
  | item :: rest, found => anchored item (anchoredItems rest found)

def anchoredEntries : List (Node Nat × Node Nat) → List (Nat × Node Nat) → List (Nat × Node Nat)
  | [], found => found
  | (key, value) :: rest, found => anchored key (anchored value (anchoredEntries rest found))
end

/-- The nodes in slots, the last one first: the content of a slot is the first that is found. -/
def slotContents (root : Node Nat) : List (Nat × Node Nat) := (anchored root []).reverse

mutual
/-- The number of places where something stands, begins or ends. -/
def extent {α : Type} : Node α → Nat
  | .aliasOf _ | .scalar .. => 1
  | .sequence _ items => extentItems items + 2
  | .mapping _ entries => extentEntries entries + 2

def extentItems {α : Type} : List (Node α) → Nat
  | [] => 0
  | item :: rest => extent item + extentItems rest

def extentEntries {α : Type} : List (Node α × Node α) → Nat
  | [] => 0
  | (key, value) :: rest => extent key + extent value + extentEntries rest
end

end Node
end ApiTypings.Yaml
