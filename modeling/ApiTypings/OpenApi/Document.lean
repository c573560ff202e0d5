/-
Documents and the references in them.

A place that holds a reference and a place that holds the thing itself are read alike:
the chain of references is followed to its end, and the value there is decoded.
-/
import ApiTypings.Failure
import ApiTypings.OpenApi.Format

namespace ApiTypings.OpenApi.Document

/-- The document of a tree. -/
def ofJson (tree : Json) : Except Failure Document :=
  match Decoder.decodeFrom "" OpenApi.description.decode tree with
  | .ok description => .ok { tree, description }
  | .error failure => .error failure

theorem ofJson_eq_ok {tree : Json} {document : Document} :
    ofJson tree = .ok document
      ↔ document.tree = tree ∧ OpenApi.description.decode tree = .ok document.description := by
  obtain ⟨found, described⟩ := document
  rw [← Decoder.decodeFrom_eq_ok, ofJson]
  cases Decoder.decodeFrom "" OpenApi.description.decode tree <;> simp [eq_comm]

/-- The value that a reference points at, which may be a reference again. -/
def resolve (document : Document) (reference : String) : Except Failure Json :=
  match Json.resolve document.tree reference with
  | .ok value => .ok value
  | .error error => .error (.reference error)

/-- The value at the end of the chain that begins with a reference, decoded. -/
def target {α : Type} (document : Document) (decoder : Decoder α) (reference : String) :
    Except Failure α :=
  match Json.resolveChain document.tree reference with
  | .ok value => Decoder.decodeFrom reference decoder value
  | .error error => .error (.reference error)

/-- The thing itself, or the one that the reference leads to. -/
def fetch {α : Type} (document : Document) (decoder : Decoder α) : Referable α → Except Failure α
  | .inline item => .ok item
  | .reference pointer => document.target decoder pointer

end ApiTypings.OpenApi.Document
