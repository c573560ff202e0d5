/-
The overloads of one operation as an equation.

They are built under a collector of findings, step by step, and any step may fail.  No step
looks at what has been found.  `Build.ComesTo` says what a computation comes to, a result or
a failure, and composing computations composes what they come to.

So the overloads of an operation can be written down without the collector: there is one for
each content type of the body, or a single one where there is no content, and all of them are
made of the same parts by `Overload.overload`.
-/
import Mathlib
import ApiTypings.Proofs.Inlining
import ApiTypings.Proofs.Lowering

namespace ApiTypings

open OpenApi Inspect

/-! ### Computations that may fail -/

namespace Build

variable {α β : Type}

/-- The computation comes to `result`, whatever was found before. -/
def ComesTo (build : Build α) (result : Except Failure α) : Prop :=
  ∃ counts, Gives build.run result counts

theorem comesTo_pure (value : α) : ComesTo (pure value) (.ok value) := ⟨[], gives_pure _⟩

theorem comesTo_ofExcept (result : Except Failure α) : ComesTo (ofExcept result) result :=
  ⟨[], gives_pure _⟩

theorem comesTo_lift {inspect : Inspect α} (h : Appends inspect) :
    ComesTo (ExceptT.lift inspect) (.ok inspect.value) := by
  show ∃ counts, Gives (Except.ok <$> inspect) (.ok inspect.value) counts
  rw [map_eq_pure_bind]
  exact ⟨_, h.gives.bind (gives_pure _)⟩

theorem ComesTo.bind {build : Build α} {result : Except Failure α} {next : α → Build β}
    {results : α → Except Failure β} (h : ComesTo build result)
    (hnext : ∀ value, ComesTo (next value) (results value)) :
    ComesTo (build >>= next) (result >>= results) := by
  obtain ⟨counts, hgives⟩ := h
  show ∃ counts, Gives (build.run >>= ExceptT.bindCont next) (result >>= results) counts
  cases result with
  | error failure => exact ⟨_, hgives.bind (gives_pure _)⟩
  | ok value =>
      obtain ⟨later, hlater⟩ := hnext value
      exact ⟨_, hgives.bind hlater⟩

theorem ComesTo.lift {inspect : Inspect α} {next : α → Build β} {result : Except Failure β}
    (h : Appends inspect) (hnext : ComesTo (next inspect.value) result) :
    ComesTo (ExceptT.lift inspect >>= next) result := by
  obtain ⟨counts, hgives⟩ := comesTo_lift h
  obtain ⟨later, hlater⟩ := hnext
  show ∃ counts, Gives ((ExceptT.lift inspect).run >>= ExceptT.bindCont next) result counts
  exact ⟨_, hgives.bind hlater⟩

/-- A run at a place comes to the same, with the warnings of the place beside it. -/
theorem ComesTo.runAt {build : Build α} {result : Except Failure α} (h : ComesTo build result)
    (place : String) :
    ∃ warnings, Overload.runAt place build = result.map fun value => (value, warnings) := by
  obtain ⟨counts, hgives⟩ := h
  have happends : Appends build.run := ⟨_, _, hgives⟩
  rw [Overload.runAt, happends.runAt_eq, hgives.value_eq]
  cases result with
  | error failure => exact ⟨[], rfl⟩
  | ok value => exact ⟨_, rfl⟩

end Build

/-! ### The parts of an overload -/

namespace UrlTemplate

theorem appends_valueType (coerce : Bool) (parameter : Parameter) :
    Appends (valueType coerce parameter) :=
  (TypeExpr.appends_ofItem fun _ _ => TypeExpr.appends_ofSchema _).bindPure _

theorem appends_queryFields (parameters : List Parameter) : Appends (queryFields parameters) :=
  traverses_queryFields.appends fun parameter _ => appends_valueType true parameter

theorem appends_queryParts (parameters : List Parameter) : Appends (queryParts parameters) := by
  refine (appends_queryFields parameters).bind ?_
  split
  · exact appends_pure _
  · split <;> exact appends_pure _

theorem appends_pathValue? {table : ParameterTable} {name : String} {inspect : Inspect TypeExpr}
    (h : inspect ∈ pathValue? table name) : Appends inspect := by
  unfold pathValue? at h
  split at h
  · split at h <;> cases h
    exact appends_valueType false _
  · cases h

theorem appends_pathPart (table : ParameterTable) (piece : PatternPiece) :
    Appends (TemplatePart.ofPiece (pathValue? table) piece) := by
  cases piece with
  | text chars => exact appends_pure _
  | braced name =>
      rw [TemplatePart.ofPiece]
      split
      · rename_i inspect hinspect
        exact (appends_pathValue? hinspect).map _
      · exact appends_pure _

theorem appends_pathParts (table : ParameterTable) (pieces : List PatternPiece) :
    Appends (TemplatePart.ofPieces (pathValue? table) pieces) :=
  (TemplatePart.traverses_ofPieces _).appends fun piece _ => appends_pathPart table piece

theorem appends_path (pattern : String) (table : ParameterTable) : Appends (path pattern table) :=
  (appends_pathParts table _).bind ((appends_queryParts _).bindPure _)

end UrlTemplate

namespace TypeExpr

theorem appends_ofRequestBody (contentType : String) (schema : Option Schema)
    (settings : Settings) : Appends (ofRequestBody contentType schema settings) := by
  have hitem (coerce : Bool) : Appends (ofItem coerce schema) :=
    appends_ofItem fun _ _ => appends_ofSchema _
  unfold ofRequestBody
  split
  case h_1 => exact (hitem false).bindPure _
  case h_4 => exact (hitem true).bind (by split <;> exact appends_pure _)
  all_goals exact appends_pure _

theorem appends_accessorsOf (contentType : String) (schema : Option Schema) :
    Appends (accessorsOf contentType schema) := by
  unfold accessorsOf
  split
  case h_1 => exact (appends_ofItem fun _ _ => appends_ofSchema _).bindPure _
  all_goals exact appends_pure _

theorem appends_responseVariants (codes : StatusCode.CodeSet)
    (content : List (String × MediaType)) : Appends (responseVariants codes content) :=
  (traverses_responseVariants codes).appends fun entry _ =>
    appends_accessorsOf entry.1 entry.2.schema

theorem appends_ofResponse (codes : StatusCode.CodeSet) (response : Response) :
    Appends (ofResponse codes response) := by
  unfold ofResponse
  split
  · exact appends_pure _
  · exact (appends_responseVariants codes _).bindPure _

end TypeExpr

namespace Overload

theorem appends_headerMembers (headers : List Parameter) : Appends (headerMembers headers) :=
  traverses_headerMembers.appends fun header _ => UrlTemplate.appends_valueType false header

theorem appends_headersType (table : ParameterTable) (contentType : Option String) :
    Appends (headersType table contentType) := by
  refine (appends_headerMembers _).bind ?_
  dsimp only
  split <;> exact appends_pure _

/-- The bodies of a request are the types of its contents, in their order. -/
theorem requestBodies_gives (settings : Settings) (content : List (String × MediaType)) :
    Appends (requestBodies settings content)
      ∧ (requestBodies settings content).value = content.map fun entry =>
        (entry.1, (TypeExpr.ofRequestBody entry.1 entry.2.schema settings).value) := by
  have htypes : ∀ entry ∈ content,
      Appends (TypeExpr.ofRequestBody entry.1 entry.2.schema settings) := fun entry _ =>
    TypeExpr.appends_ofRequestBody entry.1 entry.2.schema settings
  have htraverses := traverses_requestBodies settings
  exact ⟨htraverses.appends htypes, htraverses.value_eq htypes⟩

theorem appends_ofBody (common : Common) (body : Option (String × TypeExpr)) :
    Appends (ofBody common body) := by
  unfold ofBody
  exact (appends_headersType common.table (body.map Prod.fst)).bind (appends_pure _)

/-- There is one overload for each body, in their order. -/
theorem ofBodies_gives (common : Common) (bodies : List (Option (String × TypeExpr))) :
    Appends (ofBodies common bodies)
      ∧ (ofBodies common bodies).value = bodies.map fun body => (ofBody common body).value := by
  have hbodies : ∀ body ∈ bodies, Appends (ofBody common body) := fun body _ =>
    appends_ofBody common body
  have htraverses := traverses_ofBodies common
  exact ⟨htraverses.appends hbodies, htraverses.value_eq hbodies⟩

/-! ### Operations -/

/-- The types of responses, without the collector. -/
def typesOfResponses (document : Document) :
    List (StatusCode.CodeSet × Referable Response) → Except Failure (List TypeExpr)
  | [] => .ok []
  | (codes, entry) :: rest => do
    let response ← document.fetch OpenApi.response.decode entry
    let types ← typesOfResponses document rest
    return (TypeExpr.ofResponse codes response).value :: types

theorem comesTo_responseTypes (document : Document)
    (responses : List (StatusCode.CodeSet × Referable Response)) :
    (responseTypes document responses).ComesTo (typesOfResponses document responses) := by
  induction responses with
  | nil => exact Build.comesTo_pure _
  | cons entry responses ih =>
      obtain ⟨codes, entry⟩ := entry
      rw [responseTypes, typesOfResponses]
      refine (Build.comesTo_ofExcept _).bind fun response => ?_
      exact Build.ComesTo.lift (TypeExpr.appends_ofResponse codes response)
        (ih.bind fun types => Build.comesTo_pure _)

/-- What the overloads of an operation are made for: each content of the body, or a request
without content. -/
def contentsOf (body : Option RequestBody) : List (Option (String × MediaType)) :=
  match (body.map (·.content)).getD [] with
  | [] => [none]
  | content => content.map some

/-- The content together with the type of a body in it. -/
def typedContent (settings : Settings) (entry : String × MediaType) : String × TypeExpr :=
  (entry.1, (TypeExpr.ofRequestBody entry.1 entry.2.schema settings).value)

/-- The overload for one content of the body. Only the second argument depends on the content. -/
def overload (settings : Settings) (common : Common) (content : Option (String × MediaType)) :
    Signature where
  docs := common.docs
  name := "fetch"
  typeParameters := common.typeParameters
  arguments := [
    { name := "input", type := common.input },
    initArgument common.method common.body
      (content.map fun entry => (typedContent settings entry).2)
      (headersType common.table (content.map Prod.fst)).value]
  returns := common.returns

theorem value_ofBody (settings : Settings) (common : Common)
    (content : Option (String × MediaType)) :
    (ofBody common (content.map (typedContent settings))).value
      = overload settings common content := by
  unfold ofBody
  rw [value_bindPure, Option.map_map, Option.map_map]
  rfl

/-- The bodies that an operation is given overloads for are those of its contents. -/
theorem value_requestBodies (settings : Settings) (body : Option RequestBody) :
    (let bodies := (requestBodies settings ((body.map (·.content)).getD [])).value
      if bodies.isEmpty then [none] else bodies.map some)
      = (contentsOf body).map (Option.map (typedContent settings)) := by
  rw [(requestBodies_gives settings _).2, contentsOf]
  cases (body.map (·.content)).getD [] with
  | nil => rfl
  | cons entry content => simp [typedContent, Function.comp_def]

/-- What the overloads of an operation have in common, without the collector. -/
def commonOf (document : Document) (settings : Settings) (pattern : String)
    (shared : ParameterTable) (method : Method) (operation : Operation) :
    Except Failure Common := do
  let table ← shared.add? document operation.parameters
  let body ← fetchBody document operation
  let responses ← expandResponses method pattern (operation.responses.getD [])
  let types ← typesOfResponses document responses
  let input ← UrlTemplate.input document settings (UrlTemplate.path pattern table).value
  return {
    method, table, body, input
    docs := docsOf operation
    typeParameters := discriminator settings
    returns := returnType types }

/-- **An operation has one overload for each content of its body**, and what they have in common is
made from the operation and the parameters of its path. -/
theorem comesTo_ofOperation (document : Document) (settings : Settings) (pattern : String)
    (shared : ParameterTable) (method : Method) (operation : Operation) :
    (ofOperation document settings pattern shared method operation).ComesTo
      (do
        let common ← commonOf document settings pattern shared method operation
        return (contentsOf common.body).map (overload settings common)) := by
  have hbodies (common : Common) : Build.ComesTo
      (ExceptT.lift (ofBodies common
        ((contentsOf common.body).map (Option.map (typedContent settings)))))
      (.ok ((contentsOf common.body).map (overload settings common))) := by
    obtain ⟨happends, hvalue⟩ := ofBodies_gives common
      ((contentsOf common.body).map (Option.map (typedContent settings)))
    have hoverloads := Build.comesTo_lift happends
    rw [hvalue, List.map_map] at hoverloads
    simpa only [Function.comp_def, value_ofBody] using hoverloads
  unfold ofOperation commonOf
  simp only [bind_assoc, pure_bind]
  refine (Build.comesTo_ofExcept _).bind fun table => ?_
  refine (Build.comesTo_ofExcept _).bind fun body => ?_
  refine Build.ComesTo.lift (requestBodies_gives settings _).1 ?_
  refine (Build.comesTo_ofExcept _).bind fun responses => ?_
  refine (comesTo_responseTypes document responses).bind fun types => ?_
  refine Build.ComesTo.lift (UrlTemplate.appends_path pattern table) ?_
  refine (Build.comesTo_ofExcept _).bind fun input => ?_
  rw [value_requestBodies]
  exact hbodies _

/-- The overloads that an operation is given by itself, with its warnings: one for each content of
its body, and nothing but the content tells them apart. -/
structure OfOperation (document : Document) (settings : Settings) (pattern : String)
    (shared : ParameterTable) (method : Method) (operation : Operation)
    (group : List Signature × List Warning) : Prop where
  alone : runAt (method.upperName ++ " " ++ pattern)
    (ofOperation document settings pattern shared method operation) = .ok group
  overloads : ∃ common, group.1 = (contentsOf common.body).map (overload settings common)
    ∧ common.method = method ∧ shared.add? document operation.parameters = .ok common.table
    ∧ fetchBody document operation = .ok common.body ∧ common.docs = docsOf operation
    ∧ common.typeParameters = discriminator settings

variable {document : Document} {settings : Settings} {pattern : String} {shared : ParameterTable}
  {method : Method} {operation : Operation}

/-- What the overloads of an operation have in common is put together in these steps. -/
theorem exists_steps_of_commonOf {common : Common}
    (h : commonOf document settings pattern shared method operation = .ok common) :
    ∃ table body responses types input,
      shared.add? document operation.parameters = .ok table
        ∧ fetchBody document operation = .ok body
        ∧ expandResponses method pattern (operation.responses.getD []) = .ok responses
        ∧ typesOfResponses document responses = .ok types
        ∧ UrlTemplate.input document settings (UrlTemplate.path pattern table).value = .ok input
        ∧ common = {
          method, table, body, input
          docs := docsOf operation
          typeParameters := discriminator settings
          returns := returnType types } := by
  obtain ⟨table, htable, h⟩ := bind_eq_ok.mp h
  obtain ⟨body, hbody, h⟩ := bind_eq_ok.mp h
  obtain ⟨responses, hresponses, h⟩ := bind_eq_ok.mp h
  obtain ⟨types, htypes, h⟩ := bind_eq_ok.mp h
  obtain ⟨input, hinput, h⟩ := bind_eq_ok.mp h
  cases h
  exact ⟨table, body, responses, types, input, htable, hbody, hresponses, htypes, hinput, rfl⟩

theorem commonOf_eq_ok {common : Common}
    (h : commonOf document settings pattern shared method operation = .ok common) :
    common.method = method ∧ shared.add? document operation.parameters = .ok common.table
      ∧ fetchBody document operation = .ok common.body ∧ common.docs = docsOf operation
      ∧ common.typeParameters = discriminator settings := by
  obtain ⟨table, body, responses, types, input, htable, hbody, -, -, -, rfl⟩ :=
    exists_steps_of_commonOf h
  exact ⟨rfl, htable, hbody, rfl, rfl⟩

theorem exists_commonOf {place : String} {group : List Signature × List Warning}
    (h : runAt place (ofOperation document settings pattern shared method operation) = .ok group) :
    ∃ common, commonOf document settings pattern shared method operation = .ok common
      ∧ group.1 = (contentsOf common.body).map (overload settings common) := by
  obtain ⟨warnings, hrun⟩ :=
    (comesTo_ofOperation document settings pattern shared method operation).runAt place
  rw [hrun] at h
  cases hcommon : commonOf document settings pattern shared method operation with
  | error failure =>
      rw [hcommon] at h
      cases h
  | ok common =>
      rw [hcommon] at h
      cases h
      exact ⟨common, rfl, rfl⟩

theorem ofOperation_iff {group : List Signature × List Warning} :
    OfOperation document settings pattern shared method operation group
      ↔ runAt (method.upperName ++ " " ++ pattern)
        (ofOperation document settings pattern shared method operation) = .ok group := by
  refine ⟨OfOperation.alone, fun halone => ⟨halone, ?_⟩⟩
  obtain ⟨common, hcommon, hgroup⟩ := exists_commonOf halone
  exact ⟨common, hgroup, commonOf_eq_ok hcommon⟩

theorem contentsOf_ne_nil (body : Option RequestBody) : contentsOf body ≠ [] := by
  rw [contentsOf]
  split
  · exact List.cons_ne_nil _ _
  · rename_i hne
    exact fun hnil => hne (List.map_eq_nil_iff.mp hnil)

/-- No operation is without an overload. -/
theorem OfOperation.ne_nil {group : List Signature × List Warning}
    (h : OfOperation document settings pattern shared method operation group) : group.1 ≠ [] := by
  obtain ⟨common, hgroup, -⟩ := h.overloads
  rw [hgroup]
  exact fun hnil => contentsOf_ne_nil common.body (List.map_eq_nil_iff.mp hnil)

end Overload
end ApiTypings
