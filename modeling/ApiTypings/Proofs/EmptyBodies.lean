/-
A request body without content.

There is nothing to type in such a body, so its operation gets a single overload, as one without a
body does: no member for the body, whether it is required or not, and no content type among the
headers.  All of this is decided by the list of contents.  But whether the second argument of a
`GET` may be left out is decided by the body being there, so this one mark tells the two apart.

The overloads are built from the body in one place.  What is built before and after it, with the
warnings and the failures, is the same computation, so the two are compared as computations.
-/
import Mathlib
import ApiTypings.Proofs.Inlining

namespace ApiTypings

/-- The argument, made optional or not if it is the one called `init`. -/
def Argument.asInit (isOptional : Bool) (argument : Argument) : Argument :=
  if argument.name = "init" then { argument with isOptional } else argument

theorem Argument.asInit_asInit (first second : Bool) (argument : Argument) :
    (argument.asInit first).asInit second = argument.asInit second := by
  unfold asInit
  by_cases hname : argument.name = "init"
  · simp [hname]
  · simp [hname]

/-- The signature with its second argument made optional or not. -/
def Signature.withInit (isOptional : Bool) (signature : Signature) : Signature :=
  { signature with arguments := signature.arguments.map (Argument.asInit isOptional) }

theorem Signature.withInit_withInit (first second : Bool) (signature : Signature) :
    (signature.withInit first).withInit second = signature.withInit second := by
  simp [withInit, Function.comp_def, Argument.asInit_asInit]

namespace Overload

open OpenApi

variable {document : Document} {settings : Settings} {pattern : String} {shared : ParameterTable}
  {method : Method} {operation : Operation} {entry : Referable RequestBody} {body : RequestBody}

/-- Of the overload for a request without content, only the second argument depends on the body. -/
theorem ofBody_none (common : Common) (body : Option RequestBody) :
    ofBody { common with body } none
      = Signature.withInit (common.method = .get && body.isNone) <$> ofBody common none := by
  unfold ofBody
  rw [map_bind]
  refine bind_congr fun headers => ?_
  rw [map_pure]
  refine congrArg pure ?_
  simp [Signature.withInit, Argument.asInit, initArgument]

theorem ofBodies_none (common : Common) (body : Option RequestBody) :
    ofBodies { common with body } [none]
      = List.map (Signature.withInit (common.method = .get && body.isNone))
        <$> ofBodies common [none] := by
  rw [ofBodies, ofBodies, ofBody_none, ofBodies, ofBodies]
  simp only [map_eq_pure_bind, bind_assoc, pure_bind, List.map_cons, List.map_nil]

theorem ofExcept_ok_bind {α β : Type} (value : α) (next : α → Build β) :
    (Build.ofExcept (.ok value) >>= next) = next value := rfl

theorem requestBodies_nil_bind {α : Type} (settings : Settings)
    (next : List (String × TypeExpr) → Build α) :
    (ExceptT.lift (requestBodies settings []) >>= next) = next [] := rfl

theorem lift_map {α β : Type} (f : α → β) (inspect : Inspect α) :
    (ExceptT.lift (f <$> inspect) : Build β) = f <$> ExceptT.lift inspect := by
  rfl

/-- Two bodies without content are told apart by the second argument only. -/
theorem ofOperation_of_bodies {first second : Option (Referable RequestBody)}
    {before after : Option RequestBody}
    (hbefore : fetchBody document { operation with requestBody := first } = .ok before)
    (hafter : fetchBody document { operation with requestBody := second } = .ok after)
    (hfirst : (before.map (·.content)).getD [] = [])
    (hsecond : (after.map (·.content)).getD [] = []) :
    ofOperation document settings pattern shared method { operation with requestBody := second }
      = List.map (Signature.withInit (method = .get && after.isNone))
        <$> ofOperation document settings pattern shared method
          { operation with requestBody := first } := by
  unfold ofOperation
  simp only [map_bind]
  refine bind_congr fun table => ?_
  change Build.ofExcept (fetchBody document { operation with requestBody := second }) >>= _
    = Build.ofExcept (fetchBody document { operation with requestBody := first }) >>= _
  rw [hbefore, hafter, ofExcept_ok_bind, ofExcept_ok_bind, hfirst, hsecond,
    requestBodies_nil_bind, requestBodies_nil_bind]
  refine bind_congr fun responses => bind_congr fun types => bind_congr fun path => ?_
  refine bind_congr fun input => ?_
  have hdocs (body : Option (Referable RequestBody)) :
      docsOf { operation with requestBody := body } = docsOf operation := rfl
  simp only [List.isEmpty_nil, if_true, hdocs]
  rw [← lift_map]
  let common : Common := {
    method, table, body := before, input
    docs := docsOf operation
    typeParameters := discriminator settings
    returns := returnType types }
  exact congrArg ExceptT.lift (ofBodies_none common after)

/-- **A body without content is like none, except that a `GET` needs its second argument.**  For
every other method the overloads and the warnings, or the failure, are those of the operation
without a body.  For a `GET` they are the same up to one mark: the second argument must be given
beside such a body, and may be left out without it. -/
theorem ofOperation_of_emptyBody (hentry : operation.requestBody = some entry)
    (hbody : document.fetch OpenApi.requestBody.decode entry = .ok body)
    (hcontent : body.content = []) :
    (method ≠ .get →
        ofOperation document settings pattern shared method operation
          = ofOperation document settings pattern shared method
            { operation with requestBody := none })
      ∧ (method = .get →
        ofOperation document settings pattern shared method operation
            = List.map (Signature.withInit false) <$> ofOperation document settings pattern shared
              method { operation with requestBody := none }
          ∧ ofOperation document settings pattern shared method
              { operation with requestBody := none }
            = List.map (Signature.withInit true)
              <$> ofOperation document settings pattern shared method operation) := by
  have hself : { operation with requestBody := some entry } = operation := by rw [← hentry]
  have hfetch : fetchBody document { operation with requestBody := some entry }
      = .ok (some body) := congrArg (Except.map some) hbody
  have hnone : fetchBody document { operation with requestBody := none } = .ok none := rfl
  have hwith : ofOperation document settings pattern shared method
        { operation with requestBody := some entry }
      = List.map (Signature.withInit (method = .get && false))
        <$> ofOperation document settings pattern shared method
          { operation with requestBody := none } :=
    ofOperation_of_bodies hnone hfetch rfl hcontent
  have hwithout : ofOperation document settings pattern shared method
        { operation with requestBody := none }
      = List.map (Signature.withInit (method = .get && true))
        <$> ofOperation document settings pattern shared method
          { operation with requestBody := some entry } :=
    ofOperation_of_bodies hfetch hnone hcontent rfl
  rw [hself, Bool.and_false] at hwith
  rw [hself, Bool.and_true] at hwithout
  refine ⟨fun hmethod => ?other, fun hmethod => ⟨hwith, ?get⟩⟩
  case get => rwa [decide_eq_true hmethod] at hwithout
  case other =>
    rw [decide_eq_false hmethod] at hwithout
    -- Each is the other with its second argument required, and to require it twice is no more.
    calc ofOperation document settings pattern shared method operation
        = List.map (Signature.withInit false) <$> List.map (Signature.withInit false)
            <$> ofOperation document settings pattern shared method operation := by
          rw [← hwithout]
          exact hwith
      _ = List.map (Signature.withInit false)
            <$> ofOperation document settings pattern shared method operation := by
          rw [Functor.map_map]
          simp only [List.map_map, Function.comp_def, Signature.withInit_withInit]
      _ = ofOperation document settings pattern shared method
            { operation with requestBody := none } := hwithout.symm

/-- A body behind a reference that is required and has no content: for a `PUT` as for none, for a
`GET` up to the mark. -/
theorem ofOperation_of_emptyBody_required :
    let value : Json := .object [("required", .boolean true)]
    let document : Document := ⟨.object [("x-bodies", .object [("none", value)])], {}⟩
    let entry : Referable RequestBody := .reference "#/x-bodies/none"
    let operation : Operation := { requestBody := some entry }
    let body : RequestBody := { required := true }
    (operation.requestBody = some entry
        ∧ document.fetch OpenApi.requestBody.decode entry = .ok body ∧ body.content = [])
      ∧ (Method.put ≠ .get ∧ ofOperation document .relative "/pets" [] .put operation
        = ofOperation document .relative "/pets" [] .put { operation with requestBody := none })
      ∧ ofOperation document .relative "/pets" [] .get operation
        = List.map (Signature.withInit false) <$> ofOperation document .relative "/pets" [] .get
          { operation with requestBody := none } := by
  intro value document entry operation body
  have hchain : Json.resolveChain document.tree "#/x-bodies/none" = .ok value := by
    decide +kernel
  have hbody : document.fetch OpenApi.requestBody.decode entry = .ok body :=
    Document.fetch_reference hchain
  exact ⟨⟨rfl, hbody, rfl⟩, ⟨nofun, (ofOperation_of_emptyBody rfl hbody rfl).1 nofun⟩,
    ((ofOperation_of_emptyBody rfl hbody rfl).2 rfl).1⟩

/-- With a body that has no content the second argument of a `GET` is asked for, and without a body
it is not. -/
theorem emptyBody_asks_for_init :
    let document : Document := ⟨.object [], {}⟩
    let optional (operation : Operation) : Option (List (List (String × Bool))) :=
      (runAt "GET /pets" (ofOperation document .relative "/pets" [] .get operation)).toOption.map
        fun group => group.1.map fun signature => signature.arguments.map fun argument =>
          (argument.name, argument.isOptional)
    ∃ operation, OpenApi.operation.decode
        (.object [("requestBody", .object [("content", .object [])])]) = .ok operation
      ∧ operation.requestBody = some (.inline {})
      ∧ optional operation = some [[("input", false), ("init", false)]]
      ∧ optional { operation with requestBody := none }
        = some [[("input", false), ("init", true)]] :=
  ⟨_, rfl, rfl, by decide +kernel, by decide +kernel⟩

end Overload
end ApiTypings
