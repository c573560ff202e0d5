/-
The typed view of a document: the fields that shape the generated declarations.
-/
import ApiTypings.OpenApi.Schema

namespace ApiTypings.OpenApi

structure License where
  name : Option String := none

structure Contact where
  name : Option String := none
  email : Option String := none

structure Info where
  title : String := ""
  description : Option String := none
  summary : Option String := none
  version : String := ""
  license : Option License := none
  contact : Option Contact := none

/-- A variable in a server URL. -/
structure ServerVariable where
  enum : Option (List String) := none
  default : String := ""

structure Server where
  url : String := ""
  placeholders : List (String × ServerVariable) := []

/-- Where a parameter travels. -/
inductive Location
  | query
  | header
  | path
  | cookie
  deriving DecidableEq

structure Parameter where
  name : String := ""
  location : Location := .query
  required : Bool := false
  allowEmptyValue : Bool := false
  schema : Option Schema := none

structure MediaType where
  schema : Option Schema := none

structure RequestBody where
  content : List (String × MediaType) := []
  required : Bool := false

structure Response where
  content : List (String × MediaType) := []

structure Operation where
  summary : Option String := none
  description : Option String := none
  deprecated : Bool := false
  parameters : List (Referable Parameter) := []
  requestBody : Option (Referable RequestBody) := none
  responses : Option (List (String × Referable Response)) := none

/-- The methods that a path item may define. -/
inductive Method
  | get
  | put
  | post
  | delete
  | options
  | head
  | patch
  | trace
  deriving DecidableEq

namespace Method

/-- All methods in the order in which operations are visited. -/
def all : List Method := [get, put, post, delete, options, head, patch, trace]

def lowerName : Method → String
  | get => "get"
  | put => "put"
  | post => "post"
  | delete => "delete"
  | options => "options"
  | head => "head"
  | patch => "patch"
  | trace => "trace"

def upperName : Method → String
  | get => "GET"
  | put => "PUT"
  | post => "POST"
  | delete => "DELETE"
  | options => "OPTIONS"
  | head => "HEAD"
  | patch => "PATCH"
  | trace => "TRACE"

end Method

/-- What a path item holds under a method: nothing, a null, or an operation. -/
inductive Slot
  | absent
  | null
  | operation (operation : Operation)

/-- The operations of one path, by method. -/
structure PathItem where
  reference : Option String := none
  parameters : Option (List (Referable Parameter)) := none
  slots : Method → Slot := fun _ => .absent

namespace PathItem

/-- The item with the given slot under a method. -/
def withSlot (method : Method) (slot : Slot) (item : PathItem) : PathItem :=
  { item with slots := fun m => if m = method then slot else item.slots m }

/-- What `other` has replaces what `item` has; the result is no reference. -/
def overlay (item other : PathItem) : PathItem where
  parameters := other.parameters.or item.parameters
  slots method :=
    match other.slots method with
    | .absent => item.slots method
    | slot => slot

end PathItem

structure Components where
  schemas : List (String × Schema) := []

/-- The typed view of a whole document. -/
structure Description where
  info : Info := {}
  servers : List Server := []
  paths : List (String × PathItem) := []
  components : Components := {}

/-- A document: the tree that references are resolved in, beside its typed view. -/
structure Document where
  tree : Json
  description : Description

end ApiTypings.OpenApi
