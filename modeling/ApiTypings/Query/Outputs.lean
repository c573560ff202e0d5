/-
The outputs of a filter.

A filter has any number of outputs, and they are calculated one after the other, as they
are asked for: a filter with infinitely many outputs is of use where only the first few
are taken.  An error or a jump to a label ends the outputs.

The last output is told apart where it is known to be the last, so that a filter applied
to it needs nothing to come back to.
-/
import ApiTypings.Query.Value

namespace ApiTypings.Query

/-- Why there are no more outputs before the regular end. -/
inductive Signal
  /-- an error, which is any value -/
  | error (value : Value)
  /-- a jump to the end of a label -/
  | leave (label : Nat)
  /-- the limit of nested evaluations has been reached -/
  | exhausted

/-- An error with a text. -/
def Signal.text (message : String) : Signal := .error (.string message)

inductive Outputs (α : Type)
  | finished
  | stopped (signal : Signal)
  | last (value : α)
  | next (value : α) (rest : Unit → Outputs α)

namespace Outputs

variable {α β : Type}

def ofExcept : Except Signal α → Outputs α
  | .ok value => last value
  | .error signal => stopped signal

def ofList : List α → Outputs α
  | [] => finished
  | [value] => last value
  | value :: rest => next value fun _ => ofList rest

/-- One sequence after another. -/
def append : Outputs α → (Unit → Outputs α) → Outputs α
  | finished, more => more ()
  | stopped signal, _ => stopped signal
  | last value, more => next value more
  | next value rest, more => next value fun u => (rest u).append more

/-- The outputs of `f` for each of the outputs. -/
def bind : Outputs α → (α → Outputs β) → Outputs β
  | finished, _ => finished
  | stopped signal, _ => stopped signal
  | last value, f => f value
  | next value rest, f => (f value).append fun u => (rest u).bind f

instance : Monad Outputs where
  pure := last
  bind := bind

/-- The outputs that satisfy `p`. -/
def filter (p : α → Bool) : Outputs α → Outputs α
  | finished => finished
  | stopped signal => stopped signal
  | last value => if p value then last value else finished
  | next value rest =>
    if p value then next value fun u => (rest u).filter p else (rest ()).filter p

/-- At most `count` outputs; no further one is calculated. -/
def take : Nat → Outputs α → Outputs α
  | 0, _ => finished
  | 1, next value _ => last value
  | count + 2, next value rest => next value fun u => (rest u).take (count + 1)
  | _ + 1, outputs => outputs

/-- All but the first `count` outputs. -/
def drop : Nat → Outputs α → Outputs α
  | 0, outputs => outputs
  | count + 1, next _ rest => (rest ()).drop count
  | _ + 1, last _ => finished
  | _ + 1, outputs => outputs

/-- The outputs up to the first error, and what `handler` makes of that. -/
def attempt (handler : Value → Outputs α) : Outputs α → Outputs α
  | stopped (.error value) => handler value
  | next value rest => next value fun u => (rest u).attempt handler
  | outputs => outputs

/-- The outputs up to a jump to `label`. -/
def within (label : Nat) : Outputs α → Outputs α
  | stopped (.leave target) => if target = label then finished else stopped (.leave target)
  | next value rest => next value fun u => (rest u).within label
  | outputs => outputs

/-- The first output, if there is one. -/
def head? : Outputs α → Except Signal (Option α)
  | finished => .ok none
  | stopped signal => .error signal
  | last value | next value _ => .ok (some value)

/-- All outputs, in reverse before `found`. -/
def collectFrom (found : List α) : Outputs α → Except Signal (List α)
  | finished => .ok found.reverse
  | stopped signal => .error signal
  | last value => .ok (value :: found).reverse
  | next value rest => (rest ()).collectFrom (value :: found)

/-- All outputs. -/
def toList (outputs : Outputs α) : Except Signal (List α) := outputs.collectFrom []

/-- The last output, if there is one; `found` is the last so far. -/
def lastFrom (found : Option α) : Outputs α → Except Signal (Option α)
  | finished => .ok found
  | stopped signal => .error signal
  | last value => .ok (some value)
  | next value rest => (rest ()).lastFrom (some value)

/-- Threads a state through the outputs. Each of the states that `step` gives is threaded through
the outputs that are left. -/
def fold (step : α → β → Outputs β) : Outputs α → β → Outputs β
  | finished, state => last state
  | stopped signal, _ => stopped signal
  | last value, state => step value state
  | next value rest, state => (step value state).bind fun state => (rest ()).fold step state

/-- The same as `fold`, with what `project` makes of each state on the way. -/
def scan {γ : Type} (step : α → β → Outputs β) (project : α → β → Outputs γ) :
    Outputs α → β → Outputs γ
  | finished, _ => finished
  | stopped signal, _ => stopped signal
  | last value, state => (step value state).bind (project value)
  | next value rest, state =>
    (step value state).bind fun state =>
      (project value state).append fun u => (rest u).scan step project state

end Outputs
end ApiTypings.Query
