/-
The names that a filter can see.

A definition sees what was defined before it and itself.  A parameter that is a filter
brings along the scope of the caller, in which it is evaluated.
-/
import ApiTypings.Query.Term

namespace ApiTypings.Query

/-- Named things, the innermost first. -/
inductive Scope
  | empty
  | value (name : String) (content : Value) (outer : Scope)
  | filter (name : String) (body : Term) (home outer : Scope)
  | definition (definition : Definition) (outer : Scope)
  | label (name : String) (target : Nat) (outer : Scope)

/-- What a call finds. -/
inductive Callee
  /-- a parameter with the scope of the caller -/
  | parameter (body : Term) (home : Scope)
  /-- a definition with the scope that it stands in, itself included -/
  | definition (definition : Definition) (home : Scope)

namespace Scope

/-- The filter with a name and a number of arguments. -/
def filter? (name : String) (arity : Nat) : Scope → Option Callee
  | empty => none
  | value _ _ outer | label _ _ outer => outer.filter? name arity
  | filter found body home outer =>
    if arity = 0 ∧ found = name then some (.parameter body home) else outer.filter? name arity
  | definition found outer =>
    if found.name = name ∧ found.parameters.length = arity then
      some (.definition found (definition found outer))
    else outer.filter? name arity

/-- The value of a variable. -/
def value? (name : String) : Scope → Option Value
  | empty => none
  | value found content outer => if found = name then some content else outer.value? name
  | filter _ _ _ outer | definition _ outer | label _ _ outer => outer.value? name

/-- What a label stands for. -/
def label? (name : String) : Scope → Option Nat
  | empty => none
  | label found target outer => if found = name then some target else outer.label? name
  | value _ _ outer | filter _ _ _ outer | definition _ outer => outer.label? name

/-- A scope with further definitions. -/
def ofDefinitions (definitions : List Definition) : Scope :=
  definitions.foldl (fun scope found => definition found scope) empty

end Scope

/-! ### Names without a meaning -/

/-- The names that are known at a place in a filter. -/
structure Known where
  filters : List (String × Nat)
  values : List String := []
  labels : List String := []

namespace Known

def addFilter (name : String) (arity : Nat) (known : Known) : Known :=
  { known with filters := (name, arity) :: known.filters }

def addVariable (name : String) (known : Known) : Known :=
  { known with values := name :: known.values }

/-- What the body of a definition knows. -/
def enter (definition : Definition) (known : Known) : Known :=
  let known := known.addFilter definition.name definition.parameters.length
  definition.parameters.foldl (fun known parameter => match parameter with
    | .filter name => known.addFilter name 0
    | .value name => known.addVariable name) known

mutual
/-- The variables that a pattern binds. -/
def bound : Pattern → Known → Known
  | .variable name, known => known.addVariable name
  | .array items, known => boundItems items known
  | .object entries, known => boundEntries entries known

def boundItems : List Pattern → Known → Known
  | [], known => known
  | pattern :: rest, known => boundItems rest (bound pattern known)

def boundEntries : List PatternEntry → Known → Known
  | [], known => known
  | .mk _ pattern :: rest, known => boundEntries rest (bound pattern known)
end

mutual
/-- Whether every name in a filter is known. -/
def covers (known : Known) : Term → Bool
  | .input | .everything | .number _ => true
  | .string format parts =>
    (format.all fun name => known.filters.contains ("@" ++ name, 0)) && coversFragments known parts
  | .array content => coversOption known content
  | .object entries => coversEntries known entries
  | .negative term => covers known term
  | .pipe left right | .comma left right | .alternative left right | .either left right
  | .both left right | .compare _ left right | .calculate _ left right | .assign left right
  | .update left right | .updateBy _ left right | .updateAlternative left right =>
    covers known left && covers known right
  | .bind source pattern body =>
    covers known source && coversPattern known pattern && covers (bound pattern known) body
  | .label name body => covers { known with labels := name :: known.labels } body
  | .leave name => known.labels.contains name
  | .reduce source pattern start step =>
    covers known source && coversPattern known pattern && covers known start
      && covers (bound pattern known) step
  | .foreach source pattern start step project =>
    covers known source && coversPattern known pattern && covers known start
      && covers (bound pattern known) step && coversOption (bound pattern known) project
  | .attempt body handler => covers known body && coversOption known handler
  | .branch condition positive negative =>
    covers known condition && covers known positive && coversOption known negative
  | .define definition body =>
    coversDefinition known definition
      && covers (known.addFilter definition.name definition.parameters.length) body
  | .call name arguments =>
    known.filters.contains (name, arguments.length) && coversAll known arguments
  | .variable name => known.values.contains name
  | .path root links => covers known root && coversLinks known links

def coversOption (known : Known) : Option Term → Bool
  | none => true
  | some term => covers known term

def coversAll (known : Known) : List Term → Bool
  | [] => true
  | term :: rest => covers known term && coversAll known rest

def coversFragments (known : Known) : List Fragment → Bool
  | [] => true
  | .text _ :: rest => coversFragments known rest
  | .filter term :: rest => covers known term && coversFragments known rest

def coversEntries (known : Known) : List Entry → Bool
  | [] => true
  | .mk key value :: rest => covers known key && coversOption known value && coversEntries known rest

def coversPattern (known : Known) : Pattern → Bool
  | .variable _ => true
  | .array items => coversPatterns known items
  | .object entries => coversPatternEntries known entries

def coversPatterns (known : Known) : List Pattern → Bool
  | [] => true
  | pattern :: rest => coversPattern known pattern && coversPatterns known rest

def coversPatternEntries (known : Known) : List PatternEntry → Bool
  | [] => true
  | .mk key pattern :: rest =>
    covers known key && coversPattern known pattern && coversPatternEntries known rest

def coversLinks (known : Known) : List Link → Bool
  | [] => true
  | .index key _ :: rest => covers known key && coversLinks known rest
  | .slice start stop _ :: rest =>
    coversOption known start && coversOption known stop && coversLinks known rest

def coversDefinition (known : Known) : Definition → Bool
  | .mk name parameters body => covers (known.enter (.mk name parameters body)) body
end

end Known
end ApiTypings.Query
