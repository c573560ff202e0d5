/-
Findings that do not end the generation.

Types are built under a collector that knows the place in the document.  Collecting only
ever appends.
-/
namespace ApiTypings

/-- An `anyOf` over several object schemas, which is written as a plain union. -/
structure Warning where
  /-- where the schema is: a method and a path, or a component -/
  location : String
  /-- how many members of the list are object schemas -/
  members : Nat
  deriving DecidableEq

/-- The warning as it is shown. -/
def Warning.text (warning : Warning) : String :=
  warning.location ++ ": anyOf over " ++ toString warning.members
    ++ " object schemas is not converted to the equivalent TypeScript type"

/-- A place, and what has been found there. -/
structure Findings where
  location : String
  warnings : List Warning

/-- A computation that may find something. -/
abbrev Inspect (α : Type) := StateM Findings α

namespace Inspect

/-- Adds a warning for the place that is being inspected. -/
def warn (members : Nat) : Inspect Unit := modify fun findings =>
  { findings with warnings := findings.warnings ++ [⟨findings.location, members⟩] }

/-- The result of an inspection of one place, and the warnings. -/
def runAt {α : Type} (location : String) (inspect : Inspect α) : α × List Warning :=
  let (value, findings) := inspect.run ⟨location, []⟩
  (value, findings.warnings)

end Inspect
end ApiTypings
