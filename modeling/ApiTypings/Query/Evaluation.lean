/-
What filters do.

A filter can be evaluated in three ways.  `run` gives its outputs.  `locate` gives the
outputs together with their places in the input, for filters that do nothing but lead to
parts of it.  `update` replaces the parts that such a filter leads to.

All three go down one turn with each filter inside a filter and each call.  A filter that
calls itself without end uses up its turns, and only then ends with a signal of its own.

Where several filters with several outputs each are combined, the first filter is the
outermost loop.
-/
import ApiTypings.Query.Library
import ApiTypings.Query.Prelude

namespace ApiTypings.Query

/-- A value with its place, the indices that lead to it. -/
abbrev Located := List Value × Value

/-- The filters that are evaluated in a way of their own, and their numbers of arguments. -/
def specialFilters : List (String × Nat) := [
  ("empty", 0), ("error", 0), ("input", 0), ("inputs", 0), ("debug", 0), ("stderr", 0),
  ("path", 1), ("first", 1), ("last", 1), ("limit", 2), ("skip", 2), ("range", 3),
  ("sort_by", 1), ("group_by", 1), ("min_by", 1), ("max_by", 1)]

/-- The names that every filter may use. -/
def Known.everywhere : Known where
  filters := Prelude.definitions.map (fun d => (d.name, d.parameters.length))
    ++ specialFilters ++ Library.natives.map fun (name, native) => (name, native.arity)

namespace Evaluation

/-- The value of a number in a filter: a whole number if it is written as one and fits. -/
def numeral (text : String) : Value :=
  let n : Int := Decimal.digitsValue text.toList
  if text.all Char.isDigit && Value.FitsSigned n then .integer n else .spelling text

/-- Numbers in steps. A step of zero stays where it is. -/
def count (stop step : Value) : Nat → Value → Outputs Value
  | 0, _ => .stopped .exhausted
  | turns + 1, value =>
    let goes : Bool := match Value.order step (.integer 0) with
      | .gt => Value.order value stop = .lt
      | .lt => Value.order value stop = .gt
      | .eq => !Value.same value stop
    if goes then
      .next value fun _ => (Outputs.ofExcept (Value.calculate .add value step)).bind (count stop step turns)
    else .finished

/-- The number of outputs that an argument asks for. -/
def countOf (value : Value) : Except Signal Nat := do return (← value.toIndex).toNat

/-- A step with its place is a step. -/
def stepsOf (place : List Value) : List (Step × Bool) := place.map fun key => (.index key, false)

/-- What a filter gives that leads to no part of its input. -/
def noPath {α : Type} (value : Value) : Outputs α :=
  .stopped (.text ("invalid path expression with input " ++ value.render))

/-- The value of a key with an entry for it. -/
def field (key value : Value) : Except Signal (String × Value) :=
  match key with
  | .string name => .ok (name, value)
  | key => .error (.cannotUse key "string")

/-- An object with one more field. -/
def addField (value : Value) (field : String × Value) : Value :=
  match value with
  | .object fields => .object (Json.insertField field.1 field.2 fields)
  | value => value

/-- Items by their keys. -/
def byKey (name : String) (keyed : List (Value × Value)) : Outputs Value :=
  match name with
  | "sort_by" => .last (.array ((Library.sortByKey keyed).map (·.2)))
  | "group_by" => .last (.array ((Library.groups (Library.sortByKey keyed)).map .array))
  | "min_by" => .last ((Library.extreme false keyed).getD .null)
  | _ => .last ((Library.extreme true keyed).getD .null)

mutual
/-- The outputs of a filter. -/
def run : Nat → Nat → Scope → Term → Value → Outputs Value
  | 0, _, _, _, _ => .stopped .exhausted
  | turns + 1, labels, scope, term, input =>
    let outputs (term : Term) := run turns labels scope term input
    match term with
    | .input => .last input
    | .everything => run turns labels Prelude.scope (.call "recurse" []) input
    | .number text => .last (numeral text)
    | .string format parts =>
      parts.foldl (fun found part => found.bind fun text =>
        match part with
        | .text more => .ofExcept (text.calculate .add (.string more))
        | .filter inner =>
          ((outputs inner).bind fun value =>
            match format with
            | none => .last (.string (Library.toText value))
            | some name => run turns labels scope (.call ("@" ++ name) []) value).bind fun more =>
              .ofExcept (text.calculate .add more)) (.last (.string ""))
    | .array none => .last (.array [])
    | .array (some content) => .ofExcept ((outputs content).toList.map .array)
    | .object entries =>
      entries.foldl (fun found entry => found.bind fun object =>
        match entry with
        | .mk key (some value) =>
          (outputs key).bind fun key => (outputs value).bind fun value =>
            .ofExcept ((field key value).map (addField object))
        | .mk key none =>
          (outputs key).bind fun key =>
            .ofExcept do return addField object (← field key (← input.index key))) (.last (.object []))
    | .negative inner => (outputs inner).bind fun value => .ofExcept value.negate
    | .pipe left right => (outputs left).bind (run turns labels scope right)
    | .bind source pattern body =>
      ((outputs source).bind (destructure turns labels pattern scope)).bind fun scope =>
        run turns labels scope body input
    | .comma left right => (outputs left).append fun _ => outputs right
    | .alternative left right =>
      match (outputs left).filter Value.isTruthy with
      | .finished => outputs right
      | found => found
    | .either left right =>
      (outputs left).bind fun value =>
        if value.isTruthy then .last (.boolean true)
        else (outputs right).bind fun value => .last (.boolean value.isTruthy)
    | .both left right =>
      (outputs left).bind fun value =>
        if value.isTruthy then (outputs right).bind fun value => .last (.boolean value.isTruthy)
        else .last (.boolean false)
    | .compare comparison left right =>
      (outputs left).bind fun a => (outputs right).bind fun b =>
        .last (.boolean (comparison.holds (Value.order a b)))
    | .calculate op left right =>
      (outputs left).bind fun a => (outputs right).bind fun b => .ofExcept (a.calculate op b)
    | .assign target source =>
      (outputs source).bind fun value => update turns labels scope target (fun _ => .last value) input
    | .update target source => update turns labels scope target (run turns labels scope source) input
    | .updateBy op target source =>
      (outputs source).bind fun value =>
        update turns labels scope target (fun part => .ofExcept (part.calculate op value)) input
    | .updateAlternative target source =>
      (outputs source).bind fun value =>
        update turns labels scope target
          (fun part => .last (if part.isTruthy then part else value)) input
    | .label name body =>
      (run turns (labels + 1) (.label name labels scope) body input).within labels
    | .leave name =>
      match scope.label? name with
      | some label => .stopped (.leave label)
      | none => .stopped .exhausted
    | .reduce source pattern start step =>
      let scopes := (outputs source).bind (destructure turns labels pattern scope)
      (outputs start).bind (scopes.fold fun scope => run turns labels scope step)
    | .foreach source pattern start step project =>
      let scopes := (outputs source).bind (destructure turns labels pattern scope)
      let project (scope : Scope) (value : Value) := match project with
        | none => .last value
        | some project => run turns labels scope project value
      (outputs start).bind (scopes.scan (fun scope => run turns labels scope step) project)
    | .attempt body handler =>
      (outputs body).attempt fun value =>
        match handler with
        | none => .finished
        | some handler => run turns labels scope handler value
    | .branch condition positive negative =>
      (outputs condition).bind fun value =>
        if value.isTruthy then outputs positive
        else match negative with
          | none => .last input
          | some negative => outputs negative
    | .define definition body => run turns labels (.definition definition scope) body input
    | .variable name =>
      match scope.value? name with
      | some value => .last value
      | none => .stopped .exhausted
    | .path root links =>
      (outputs root).bind fun value =>
        (steps turns labels scope links input).bind fun steps => Value.followAll steps value
    | .call name arguments =>
      match scope.filter? name arguments.length with
      | some (.parameter body home) => run turns labels home body input
      | some (.definition definition home) =>
        (enter turns labels scope definition.parameters arguments home input).bind fun inner =>
          run turns labels inner definition.body input
      | none =>
        match name, arguments with
        | "empty", [] | "input", [] | "inputs", [] => .finished
        | "debug", [] | "stderr", [] => .last input
        | "error", [] => .stopped (.error input)
        | "path", [f] =>
          (locate turns labels scope f ([], input)).bind fun found => .last (.array found.1)
        | "first", [f] => (outputs f).take 1
        | "last", [f] =>
          match (outputs f).lastFrom none with
          | .ok (some value) => .last value
          | .ok none => .finished
          | .error signal => .stopped signal
        | "limit", [n, f] =>
          (outputs n).bind fun n => (Outputs.ofExcept (countOf n)).bind fun n => (outputs f).take n
        | "skip", [n, f] =>
          (outputs n).bind fun n => (Outputs.ofExcept (countOf n)).bind fun n => (outputs f).drop n
        | "range", [start, stop, step] =>
          (outputs start).bind fun start => (outputs stop).bind fun stop =>
            (outputs step).bind fun step => count stop step turns start
        | "sort_by", [f] | "group_by", [f] | "min_by", [f] | "max_by", [f] =>
          let keyed : Except Signal (List (Value × Value)) := do
            (← Library.items input).mapM fun item => do
              return (.array (← (run turns labels scope f item).toList), item)
          (Outputs.ofExcept keyed).bind (byKey name)
        | name, arguments =>
          match Library.native? name arguments.length with
          | some native =>
            (values turns labels scope arguments input).bind fun arguments =>
              .ofExcept (native.apply arguments input)
          | none => .stopped .exhausted

/-- The outputs of several filters, one of each. -/
def values : Nat → Nat → Scope → List Term → Value → Outputs (List Value)
  | 0, _, _, _, _ => .stopped .exhausted
  | _ + 1, _, _, [], _ => .last []
  | turns + 1, labels, scope, term :: rest, input =>
    (run turns labels scope term input).bind fun value =>
      (values turns labels scope rest input).bind fun others => .last (value :: others)

/-- The steps that links stand for. -/
def steps : Nat → Nat → Scope → List Link → Value → Outputs (List (Step × Bool))
  | 0, _, _, _, _ => .stopped .exhausted
  | _ + 1, _, _, [], _ => .last []
  | turns + 1, labels, scope, link :: rest, input =>
    let bound : Option Term → Outputs (Option Value)
      | none => .last none
      | some term => (run turns labels scope term input).bind fun value => .last (some value)
    let first : Outputs (Step × Bool) := match link with
      | .index key lenient =>
        (run turns labels scope key input).bind fun key => .last (.index key, lenient)
      | .slice none none lenient => .last (.each, lenient)
      | .slice start stop lenient =>
        (bound start).bind fun start => (bound stop).bind fun stop =>
          .last (.slice start stop, lenient)
    first.bind fun step => (steps turns labels scope rest input).bind fun others =>
      .last (step :: others)

/-- The scopes in which the variables of a pattern stand for the parts of a value. -/
def destructure : Nat → Nat → Pattern → Scope → Value → Outputs Scope
  | 0, _, _, _, _ => .stopped .exhausted
  | turns + 1, labels, pattern, scope, value =>
    match pattern with
    | .variable name => .last (.value name value scope)
    | .array items =>
      (items.zipIdx).foldl (fun scopes (item, n) => scopes.bind fun scope =>
        (Outputs.ofExcept (value.index (.integer n))).bind (destructure turns labels item scope)) (.last scope)
    | .object entries =>
      entries.foldl (fun scopes entry => scopes.bind fun scope =>
        match entry with
        | .mk key inner =>
          (run turns labels scope key value).bind fun key =>
            (Outputs.ofExcept (value.index key)).bind (destructure turns labels inner scope)) (.last scope)

/-- The scopes for the body of a definition that is called with arguments. -/
def enter : Nat → Nat → Scope → List Parameter → List Term → Scope → Value → Outputs Scope
  | 0, _, _, _, _, _, _ => .stopped .exhausted
  | turns + 1, labels, caller, .filter name :: parameters, argument :: arguments, home, input =>
    enter turns labels caller parameters arguments (.filter name argument caller home) input
  | turns + 1, labels, caller, .value name :: parameters, argument :: arguments, home, input =>
    (run turns labels caller argument input).bind fun value =>
      enter turns labels caller parameters arguments (.value name value home) input
  | _ + 1, _, _, _, _, home, _ => .last home

/-- The outputs of a filter with their places. -/
def locate : Nat → Nat → Scope → Term → Located → Outputs Located
  | 0, _, _, _, _ => .stopped .exhausted
  | turns + 1, labels, scope, term, (place, input) =>
    let outputs (term : Term) := locate turns labels scope term (place, input)
    let plain (term : Term) := run turns labels scope term input
    match term with
    | .input => .last (place, input)
    | .everything => locate turns labels Prelude.scope (.call "recurse" []) (place, input)
    | .pipe left right => (outputs left).bind (locate turns labels scope right)
    | .bind source pattern body =>
      ((plain source).bind (destructure turns labels pattern scope)).bind fun scope =>
        locate turns labels scope body (place, input)
    | .comma left right => (outputs left).append fun _ => outputs right
    | .alternative left right =>
      match (outputs left).filter fun found => found.2.isTruthy with
      | .finished => outputs right
      | found => found
    | .label name body =>
      (locate turns (labels + 1) (.label name labels scope) body (place, input)).within labels
    | .leave _ => (plain term).bind fun _ => .finished
    | .reduce source pattern start step =>
      let scopes := (plain source).bind (destructure turns labels pattern scope)
      (outputs start).bind (scopes.fold fun scope => locate turns labels scope step)
    | .foreach source pattern start step project =>
      let scopes := (plain source).bind (destructure turns labels pattern scope)
      let project (scope : Scope) (found : Located) := match project with
        | none => .last found
        | some project => locate turns labels scope project found
      (outputs start).bind (scopes.scan (fun scope => locate turns labels scope step) project)
    | .attempt body handler =>
      (outputs body).attempt fun value =>
        match handler with
        | none => .finished
        | some handler => locate turns labels scope handler ([], value)
    | .branch condition positive negative =>
      (plain condition).bind fun value =>
        if value.isTruthy then outputs positive
        else match negative with
          | none => .last (place, input)
          | some negative => outputs negative
    | .define definition body =>
      locate turns labels (.definition definition scope) body (place, input)
    | .path root links =>
      (outputs root).bind fun (place, value) =>
        (steps turns labels scope links input).bind fun steps =>
          Value.followAllLocated steps place value
    | .call name arguments =>
      match scope.filter? name arguments.length with
      | some (.parameter body home) => locate turns labels home body (place, input)
      | some (.definition definition home) =>
        (enter turns labels scope definition.parameters arguments home input).bind fun inner =>
          locate turns labels inner definition.body (place, input)
      | none =>
        match name, arguments with
        | "empty", [] | "error", [] => (plain term).bind fun _ => .finished
        | "first", [f] => (outputs f).take 1
        | "last", [f] =>
          match (outputs f).lastFrom none with
          | .ok (some found) => .last found
          | .ok none => .finished
          | .error signal => .stopped signal
        | "limit", [n, f] =>
          (plain n).bind fun n => (Outputs.ofExcept (countOf n)).bind fun n => (outputs f).take n
        | "skip", [n, f] =>
          (plain n).bind fun n => (Outputs.ofExcept (countOf n)).bind fun n => (outputs f).drop n
        | "getpath", [path] =>
          (plain path).bind fun path =>
            .ofExcept do
              let more ← Library.items path
              return (place ++ more, ← Library.partAt input more)
        | _, _ => noPath input
    | _ => noPath input

/-- The input with the parts replaced that a filter leads to. -/
def update : Nat → Nat → Scope → Term → (Value → Outputs Value) → Value → Outputs Value
  | 0, _, _, _, _, _ => .stopped .exhausted
  | turns + 1, labels, scope, term, f, input =>
    let plain (term : Term) := run turns labels scope term input
    match term with
    | .input => f input
    | .everything => update turns labels Prelude.scope (.call "recurse" []) f input
    | .pipe left right => update turns labels scope left (update turns labels scope right f) input
    | .bind source pattern body =>
      ((plain source).bind (destructure turns labels pattern scope)).fold
        (fun scope => update turns labels scope body f) input
    | .comma left right =>
      (update turns labels scope left f input).bind (update turns labels scope right f)
    | .alternative left right =>
      match (plain left).filter Value.isTruthy with
      | .finished => update turns labels scope right f input
      | _ => update turns labels scope left f input
    | .branch condition positive negative =>
      (plain condition).fold (fun value input =>
        if value.isTruthy then update turns labels scope positive f input
        else match negative with
          | none => f input
          | some negative => update turns labels scope negative f input) input
    | .define definition body => update turns labels (.definition definition scope) body f input
    | .path root links =>
      let all := (steps turns labels scope links input)
      update turns labels scope root (all.fold fun steps => Value.replaceAll f steps) input
    | .call name arguments =>
      match scope.filter? name arguments.length with
      | some (.parameter body home) => update turns labels home body f input
      | some (.definition definition home) =>
        (enter turns labels scope definition.parameters arguments home input).fold
          (fun inner => update turns labels inner definition.body f) input
      | none =>
        if name = "empty" && arguments.isEmpty then .last input
        else
          (locate turns labels scope term ([], input)).fold
            (fun (place, _) => Value.replaceAll f (stepsOf place)) input
    | term =>
      (locate turns labels scope term ([], input)).fold
        (fun (place, _) => Value.replaceAll f (stepsOf place)) input
end

/-- How deep filters and calls may be nested. -/
def nestingLimit : Nat := 10000000

end Evaluation
end ApiTypings.Query
