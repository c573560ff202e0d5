/-
Why a generation fails.

A generation is a sequence of steps, and it ends with the first that fails.  `FailsBy` says of a
result that certain failures are possible and that it is one of them as soon as there is any;
what comes behind a step can fail only if nothing made the step fail.

So the causes can be listed level by level, as the steps are nested: those of an operation, those
of a path, those of a document.  Four kinds of references are among them, to path items,
parameters, bodies and responses.  What stands in a schema is not.
-/
import Mathlib
import ApiTypings.Generation
import ApiTypings.Proofs.PathOverloads
import ApiTypings.Proofs.StatusCodes

namespace ApiTypings

open OpenApi

/-- The result is one of the failures, if there is any. -/
structure FailsBy {α : Type} (F : Failure → Prop) (result : Except Failure α) : Prop where
  error : ∀ failure, result = .error failure → F failure
  ok : ∀ value, result = .ok value → ∀ failure, ¬F failure

namespace FailsBy

variable {α β : Type} {F G : Failure → Prop} {result : Except Failure α}

theorem of_error {failure : Failure} (h : F failure) :
    FailsBy F (.error failure : Except Failure α) :=
  ⟨fun _ heq => by cases heq; exact h, nofun⟩

theorem of_ok {value : α} (h : ∀ failure, ¬F failure) :
    FailsBy F (.ok value : Except Failure α) :=
  ⟨nofun, fun _ _ => h⟩

theorem congr (h : FailsBy F result) (hiff : ∀ failure, F failure ↔ G failure) :
    FailsBy G result :=
  ⟨fun failure hfailure => (hiff failure).mp (h.error failure hfailure),
    fun value hvalue failure hG => h.ok value hvalue failure ((hiff failure).mpr hG)⟩

/-- Two steps: behind the first one the failures of the first are excluded. -/
theorem bind {next : α → Except Failure β} (h : FailsBy F result)
    (hfirst : ∀ failure, F failure → G failure)
    (hnext : ∀ value, result = .ok value → (∀ failure, ¬F failure) → FailsBy G (next value)) :
    FailsBy G (result >>= next) := by
  cases hresult : result with
  | ok value => exact hnext value hresult (h.ok value hresult)
  | error failure => exact of_error (hfirst failure (h.error failure hresult))

theorem map (h : FailsBy F result) (f : α → β) : FailsBy F (result.map f) := by
  cases result with
  | ok value => exact of_ok (h.ok value rfl)
  | error failure => exact of_error (h.error failure rfl)

theorem bindPure (h : FailsBy F result) (f : α → β) :
    FailsBy F (result >>= fun value => pure (f value)) :=
  h.bind (fun _ hfailure => hfailure) fun _ _ hnone => of_ok hnone

/-- A result that is looked up fails by what is found. -/
theorem self (result : Except Failure α) :
    FailsBy (fun failure => result = .error failure) result :=
  ⟨fun _ h => h, fun _ h _ => by rw [h]; exact nofun⟩

variable {ι : Type} {item : ι} {items : List ι} {Fails : ι → Failure → Prop}

/-- An item that does not fail adds no failures. -/
theorem skip (h : FailsBy (fun failure => ∃ other ∈ items, Fails other failure) result)
    (hitem : ∀ failure, ¬Fails item failure) :
    FailsBy (fun failure => ∃ other ∈ item :: items, Fails other failure) result := by
  refine ⟨fun failure hfailure => ?_, fun value hvalue failure => ?_⟩
  · obtain ⟨other, hother, hfails⟩ := h.error failure hfailure
    exact ⟨other, List.mem_cons_of_mem _ hother, hfails⟩
  · rintro ⟨other, hother, hfails⟩
    rcases List.mem_cons.mp hother with rfl | hother
    · exact hitem failure hfails
    · exact h.ok value hvalue failure ⟨other, hother, hfails⟩

/-- A step for each item of a list. -/
theorem cons {next : α → Except Failure β} (h : FailsBy (Fails item) result)
    (hnext : ∀ value, result = .ok value →
      FailsBy (fun failure => ∃ other ∈ items, Fails other failure) (next value)) :
    FailsBy (fun failure => ∃ other ∈ item :: items, Fails other failure) (result >>= next) :=
  h.bind (fun _ hfails => ⟨item, List.mem_cons_self, hfails⟩)
    fun value hvalue hnone => (hnext value hvalue).skip hnone

end FailsBy

/-! ### What an operation is made from -/

theorem ParameterTable.add?_cons (document : Document) (table : ParameterTable)
    (entry : Referable Parameter) (entries : List (Referable Parameter)) :
    table.add? document (entry :: entries) =
      (document.fetch OpenApi.parameter.decode entry >>= fun parameter =>
        (table.insert parameter).add? document entries) := by
  rw [add?, add]
  cases document.fetch OpenApi.parameter.decode entry <;> rfl

theorem ParameterTable.failsBy_add? (document : Document) (table : ParameterTable)
    (entries : List (Referable Parameter)) :
    FailsBy (fun failure => ∃ entry ∈ entries,
      document.fetch OpenApi.parameter.decode entry = .error failure)
      (table.add? document entries) := by
  induction entries generalizing table with
  | nil => exact .of_ok (by simp)
  | cons entry entries ih =>
      rw [add?_cons]
      exact (FailsBy.self _).cons fun parameter _ => ih (table.insert parameter)

namespace Overload

variable {document : Document} {settings : Settings} {pattern : String} {shared : ParameterTable}
  {method : Method} {operation : Operation}

theorem failsBy_fetchBody (document : Document) (operation : Operation) :
    FailsBy (fun failure => ∃ entry ∈ operation.requestBody,
      document.fetch OpenApi.requestBody.decode entry = .error failure)
      (fetchBody document operation) := by
  unfold fetchBody
  cases operation.requestBody with
  | none => exact .of_ok (by simp)
  | some entry => simpa using (FailsBy.self (document.fetch requestBody.decode entry)).map some

theorem failsBy_expandResponses (method : Method) (pattern : String)
    (responses : List (String × Referable Response)) :
    FailsBy (fun failure => ∃ key, StatusCode.FirstWithoutKey responses key
      ∧ failure = .invalidStatusCode key method pattern)
      (expandResponses method pattern responses) := by
  unfold expandResponses
  cases hexpand : StatusCode.expand .standard responses with
  | error key => exact .of_error ⟨key, StatusCode.expand_eq_error_iff.mp hexpand, rfl⟩
  | ok expanded =>
      refine .of_ok fun failure ⟨key, hkey, _⟩ => ?_
      rw [StatusCode.expand_eq_error_iff.mpr hkey] at hexpand
      cases hexpand

/-- The responses are fetched as they stand in the operation. -/
theorem mem_responses_iff {responses : List (String × Referable Response)}
    {expanded : List (StatusCode.CodeSet × Referable Response)}
    (h : expandResponses method pattern responses = .ok expanded) {entry : Referable Response} :
    entry ∈ expanded.map Prod.snd ↔ entry ∈ responses.map Prod.snd := by
  unfold expandResponses at h
  split at h
  · rename_i hexpand
    cases h
    rw [StatusCode.values_of_expand hexpand]
  · cases h

theorem failsBy_typesOfResponses (document : Document)
    (responses : List (StatusCode.CodeSet × Referable Response)) :
    FailsBy (fun failure => ∃ entry ∈ responses.map Prod.snd,
      document.fetch OpenApi.response.decode entry = .error failure)
      (typesOfResponses document responses) := by
  induction responses with
  | nil => exact .of_ok (by simp)
  | cons entry responses ih =>
      obtain ⟨codes, entry⟩ := entry
      rw [typesOfResponses, List.map_cons]
      exact (FailsBy.self _).cons fun response _ => ih.bindPure _

theorem failsBy_input (document : Document) (settings : Settings) (path : List TemplatePart) :
    FailsBy (fun failure => UrlTemplate.forms document settings = []
      ∧ failure = .noInputUrls (.template path) settings)
      (UrlTemplate.input document settings path) := by
  unfold UrlTemplate.input
  split
  · exact .of_error ⟨‹_›, rfl⟩
  · rename_i hne
    exact .of_ok fun _ h => hne h.1

/-! ### Operations -/

/-- The failures of an operation. -/
inductive OperationFails (document : Document) (settings : Settings) (pattern : String)
    (shared : ParameterTable) (method : Method) (operation : Operation) : Failure → Prop
  | parameter {entry : Referable Parameter} {failure : Failure}
      (h : entry ∈ operation.parameters)
      (hfetch : document.fetch OpenApi.parameter.decode entry = .error failure) :
      OperationFails document settings pattern shared method operation failure
  | body {entry : Referable RequestBody} {failure : Failure}
      (h : entry ∈ operation.requestBody)
      (hfetch : document.fetch OpenApi.requestBody.decode entry = .error failure) :
      OperationFails document settings pattern shared method operation failure
  | statusCode {key : String}
      (h : StatusCode.FirstWithoutKey (operation.responses.getD []) key) :
      OperationFails document settings pattern shared method operation
        (.invalidStatusCode key method pattern)
  | response {entry : Referable Response} {failure : Failure}
      (h : entry ∈ (operation.responses.getD []).map Prod.snd)
      (hfetch : document.fetch OpenApi.response.decode entry = .error failure) :
      OperationFails document settings pattern shared method operation failure
  | noInputUrls {table : ParameterTable}
      (htable : shared.add? document operation.parameters = .ok table)
      (h : UrlTemplate.forms document settings = []) :
      OperationFails document settings pattern shared method operation
        (.noInputUrls (.template (UrlTemplate.path pattern table).value) settings)

theorem failsBy_commonOf (document : Document) (settings : Settings) (pattern : String)
    (shared : ParameterTable) (method : Method) (operation : Operation) :
    FailsBy (OperationFails document settings pattern shared method operation)
      (commonOf document settings pattern shared method operation) := by
  unfold commonOf
  refine (ParameterTable.failsBy_add? document shared operation.parameters).bind
    (fun _ ⟨_, hentry, hfetch⟩ => .parameter hentry hfetch) fun table htable hparameters => ?_
  refine (failsBy_fetchBody document operation).bind
    (fun _ ⟨_, hentry, hfetch⟩ => .body hentry hfetch) fun body _ hbody => ?_
  refine (failsBy_expandResponses method pattern _).bind
    (fun _ ⟨_, hkey, h⟩ => h ▸ .statusCode hkey) fun responses hexpand hkeys => ?_
  refine (failsBy_typesOfResponses document responses).bind
    (fun _ ⟨_, hentry, hfetch⟩ => .response ((mem_responses_iff hexpand).mp hentry) hfetch)
    fun types _ hresponses => ?_
  refine (failsBy_input document settings _).bind
    (fun _ ⟨hforms, h⟩ => h ▸ .noInputUrls htable hforms) fun input _ hinput => ?_
  refine .of_ok fun failure h => ?_
  cases h with
  | parameter hentry hfetch => exact hparameters _ ⟨_, hentry, hfetch⟩
  | body hentry hfetch => exact hbody _ ⟨_, hentry, hfetch⟩
  | statusCode hkey => exact hkeys _ ⟨_, hkey, rfl⟩
  | response hentry hfetch =>
      exact hresponses _ ⟨_, (mem_responses_iff hexpand).mpr hentry, hfetch⟩
  | noInputUrls _ hforms => exact hinput _ ⟨hforms, rfl⟩

/-- The collector of findings has no part in a failure. -/
theorem failsBy_ofOperation (document : Document) (settings : Settings) (pattern : String)
    (shared : ParameterTable) (method : Method) (operation : Operation) (place : String) :
    FailsBy (OperationFails document settings pattern shared method operation)
      (runAt place (ofOperation document settings pattern shared method operation)) := by
  obtain ⟨warnings, hrun⟩ :=
    (comesTo_ofOperation document settings pattern shared method operation).runAt place
  rw [hrun]
  exact ((failsBy_commonOf document settings pattern shared method operation).bindPure _).map _

/-! ### Paths -/

/-- The failures at a method of an item. -/
inductive MethodFails (document : Document) (settings : Settings) (pattern : String)
    (shared : ParameterTable) (item : PathItem) (method : Method) : Failure → Prop
  | undefinedOperation (h : item.slots method = .null) :
      MethodFails document settings pattern shared item method (.undefinedOperation method pattern)
  | operation {operation : Operation} {failure : Failure}
      (hslot : item.slots method = .operation operation)
      (h : OperationFails document settings pattern shared method operation failure) :
      MethodFails document settings pattern shared item method failure

theorem failsBy_ofMethods (document : Document) (settings : Settings) (pattern : String)
    (shared : ParameterTable) (item : PathItem) (methods : List Method) :
    FailsBy (fun failure => ∃ method ∈ methods,
      MethodFails document settings pattern shared item method failure)
      (ofMethods document settings pattern shared item methods) := by
  induction methods with
  | nil => exact .of_ok (by simp)
  | cons method methods ih =>
      rw [ofMethods]
      split
      · rename_i hslot
        refine ih.skip ?_
        rintro failure (h | ⟨h, -⟩) <;> rw [hslot] at h <;> cases h
      · rename_i hslot
        exact .of_error ⟨method, List.mem_cons_self, .undefinedOperation hslot⟩
      · rename_i operation hslot
        have hmethod : FailsBy (MethodFails document settings pattern shared item method)
            (runAt (method.upperName ++ " " ++ pattern)
              (ofOperation document settings pattern shared method operation)) := by
          refine (failsBy_ofOperation document settings pattern shared method operation _).congr ?_
          intro failure
          constructor
          · exact .operation hslot
          · rintro (h | ⟨h, hfails⟩) <;> rw [hslot] at h <;> cases h
            exact hfails
        exact hmethod.cons fun group _ => ih.bindPure _

/-- The failures of a path. -/
inductive PathFails (document : Document) (settings : Settings) (pattern : String)
    (own : PathItem) : Failure → Prop
  | reference {pointer : String} {failure : Failure} (hreference : own.reference = some pointer)
      (htarget : document.target OpenApi.pathItem.decode pointer = .error failure) :
      PathFails document settings pattern own failure
  | parameter {item : PathItem} {entry : Referable Parameter} {failure : Failure}
      (hitem : effectiveItem document own = .ok item) (h : entry ∈ item.parameters.getD [])
      (hfetch : document.fetch OpenApi.parameter.decode entry = .error failure) :
      PathFails document settings pattern own failure
  | method {item : PathItem} {shared : ParameterTable} {method : Method} {failure : Failure}
      (hitem : effectiveItem document own = .ok item)
      (hshared : ParameterTable.add? document [] (item.parameters.getD []) = .ok shared)
      (h : MethodFails document settings pattern shared item method failure) :
      PathFails document settings pattern own failure

theorem failsBy_effectiveItem (document : Document) (own : PathItem) :
    FailsBy (fun failure => ∃ pointer, own.reference = some pointer
      ∧ document.target OpenApi.pathItem.decode pointer = .error failure)
      (effectiveItem document own) := by
  unfold effectiveItem
  cases own.reference with
  | none => exact .of_ok (by simp)
  | some pointer =>
      have htarget := FailsBy.self (document.target OpenApi.pathItem.decode pointer)
      simp only [Option.some.injEq, exists_eq_left']
      split
      · rename_i hother
        exact .of_ok (htarget.ok _ hother)
      · rename_i hfailed
        exact .of_error (htarget.error _ hfailed)

theorem failsBy_ofPathItem (document : Document) (settings : Settings) (pattern : String)
    (own : PathItem) :
    FailsBy (PathFails document settings pattern own)
      (ofPathItem document settings pattern own) := by
  unfold ofPathItem
  refine (failsBy_effectiveItem document own).bind
    (fun _ ⟨_, hreference, htarget⟩ => .reference hreference htarget)
    fun item hitem hreferences => ?_
  refine (ParameterTable.failsBy_add? document [] (item.parameters.getD [])).bind
    (fun _ ⟨_, hentry, hfetch⟩ => .parameter hitem hentry hfetch)
    fun shared hshared hparameters => ?_
  have hmethods := failsBy_ofMethods document settings pattern shared item Method.all
  -- there is one item and one table, so the failures of the path are those of its methods
  refine ⟨fun failure h => ?_, fun value h failure hfails => ?_⟩
  · obtain ⟨method, -, hfails⟩ := hmethods.error failure h
    exact .method hitem hshared hfails
  · cases hfails with
    | reference hreference htarget => exact hreferences failure ⟨_, hreference, htarget⟩
    | parameter hitem' hentry hfetch =>
        cases hitem.symm.trans hitem'
        exact hparameters failure ⟨_, hentry, hfetch⟩
    | method hitem' hshared' hfails =>
        cases hitem.symm.trans hitem'
        cases hshared.symm.trans hshared'
        exact hmethods.ok value h failure ⟨_, PathItem.mem_all _, hfails⟩

theorem failsBy_addPaths (document : Document) (settings : Settings)
    (paths : List (String × PathItem)) (scope : Scope) :
    FailsBy (fun failure => ∃ entry ∈ paths, PathFails document settings entry.1 entry.2 failure)
      (addPaths document settings paths scope).2 := by
  have hwalked : Walked document settings paths scope (addPaths document settings paths scope) :=
    addPaths_eq_iff.mp rfl
  generalize addPaths document settings paths scope = outcome at hwalked ⊢
  cases hwalked with
  | all hpaths =>
      refine .of_ok fun failure ⟨entry, hentry, hfails⟩ => ?_
      obtain ⟨result, hresult⟩ := exists_forall₂_iff.mp ⟨_, hpaths⟩ entry hentry
      exact (failsBy_ofPathItem document settings entry.1 entry.2).ok result
        (ofPath_iff.mp hresult) failure hfails
  | upTo hsplit _ hfailed =>
      refine .of_error ⟨_, ?_, (failsBy_ofPathItem document settings _ _).error _ hfailed⟩
      rw [hsplit]
      exact List.mem_append_right _ List.mem_cons_self

end Overload

/-! ### Documents -/

/-- The failures of a document are those of its paths. -/
def OpenApi.Document.Fails (document : Document) (settings : Settings) (failure : Failure) : Prop :=
  ∃ entry ∈ document.description.paths,
    Overload.PathFails document settings entry.1 entry.2 failure

/-- **A generation fails by its paths.**  Components have no part in it. -/
theorem Generated.failsBy_ofDocument (document : Document) (settings : Settings)
    (importRoot : String) (generatedAt : Timestamp) :
    FailsBy (document.Fails settings) (ofDocument document settings importRoot generatedAt) := by
  have hpaths := Overload.failsBy_addPaths document settings document.description.paths {}
  unfold ofDocument
  split
  · rename_i failure heq
    rw [heq] at hpaths
    exact .of_error (hpaths.error _ rfl)
  · rename_i warnings heq
    rw [heq] at hpaths
    exact .of_ok (hpaths.ok _ rfl)

end ApiTypings
