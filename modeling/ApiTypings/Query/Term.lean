/-
Filters as trees.
-/
import ApiTypings.Query.Arithmetic

namespace ApiTypings.Query

inductive Comparison
  | equal
  | notEqual
  | less
  | lessOrEqual
  | greater
  | greaterOrEqual
  deriving DecidableEq, Repr

/-- Whether an order of two values satisfies a comparison. -/
def Comparison.holds : Comparison → Ordering → Bool
  | equal, order => order = .eq
  | notEqual, order => order ≠ .eq
  | less, order => order = .lt
  | lessOrEqual, order => order ≠ .gt
  | greater, order => order = .gt
  | greaterOrEqual, order => order ≠ .lt

mutual
inductive Term
  /-- the input -/
  | input
  /-- the input and all its parts, parts of parts included -/
  | everything
  | number (text : String)
  /-- text with filters in it, whose outputs a format turns into text -/
  | string (format : Option String) (parts : List Fragment)
  | array (content : Option Term)
  | object (entries : List Entry)
  | negative (term : Term)
  | pipe (left right : Term)
  | bind (source : Term) (pattern : Pattern) (body : Term)
  | comma (left right : Term)
  /-- the true outputs of the left filter, or those of the right one if there are none -/
  | alternative (left right : Term)
  | either (left right : Term)
  | both (left right : Term)
  | compare (comparison : Comparison) (left right : Term)
  | calculate (op : Operator) (left right : Term)
  | assign (target source : Term)
  | update (target source : Term)
  | updateBy (op : Operator) (target source : Term)
  | updateAlternative (target source : Term)
  | label (name : String) (body : Term)
  | leave (name : String)
  | reduce (source : Term) (pattern : Pattern) (start step : Term)
  | foreach (source : Term) (pattern : Pattern) (start step : Term) (project : Option Term)
  | attempt (body : Term) (handler : Option Term)
  | branch (condition positive : Term) (negative : Option Term)
  | define (definition : Definition) (body : Term)
  | call (name : String) (arguments : List Term)
  | variable (name : String)
  /-- steps from the outputs of a filter -/
  | path (root : Term) (links : List Link)

inductive Fragment
  | text (text : String)
  | filter (term : Term)

/-- A key and a value. Without a value the key says which part of the input is meant. -/
inductive Entry
  | mk (key : Term) (value : Option Term)

inductive Pattern
  | variable (name : String)
  | array (items : List Pattern)
  | object (entries : List PatternEntry)

inductive PatternEntry
  | mk (key : Term) (pattern : Pattern)

/-- A named filter. Parameters are filters, or values if a dollar sign is in front. -/
inductive Definition
  | mk (name : String) (parameters : List Parameter) (body : Term)

inductive Parameter
  | filter (name : String)
  | value (name : String)

/-- A step of a path; a lenient one may lead nowhere. -/
inductive Link
  | index (key : Term) (lenient : Bool)
  | slice (start stop : Option Term) (lenient : Bool)
end

namespace Definition

def name : Definition → String
  | mk name _ _ => name

def parameters : Definition → List Parameter
  | mk _ parameters _ => parameters

def body : Definition → Term
  | mk _ _ body => body

end Definition
end ApiTypings.Query
