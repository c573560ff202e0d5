/-
A reference and the thing it leads to are interchangeable.

A place for a parameter, a request body or a response is read in two ways.  In place, a value
is a reference if it has a text under `$ref`, and else it is decoded as the thing itself.
Behind a reference, the chain is followed first and its end is decoded.  The end of a chain has
no text under `$ref`, so both ways come to the same decoder and the same thing.

An operation looks at such a place only through what is fetched from it.  Whatever part of its
references is replaced by the values that they lead to, the operation is decoded as before up
to those places, and everything that is built of it is the same.
-/
import Mathlib
import ApiTypings.Overload
import ApiTypings.Proofs.ReferenceChains
import ApiTypings.Proofs.RelatedValues

namespace ApiTypings

open OpenApi Decoder

/-! ### One place -/

namespace OpenApi

variable {α : Type} {document : Document} {decoder : Decoder α} {pointer : String} {value : Json}

namespace Document

theorem fetch_reference (h : Json.resolveChain document.tree pointer = .ok value) :
    document.fetch decoder (.reference pointer) = decodeFrom pointer decoder value := by
  rw [fetch, target, h]

/-- The end of a chain is no reference. -/
theorem referenceIn?_of_resolveChain (h : Json.resolveChain document.tree pointer = .ok value) :
    Json.referenceIn? value = none := by
  obtain ⟨-, -, -, -, -, hnone⟩ := Json.resolveChain_eq_ok_iff.mp h
  exact hnone

/-- **In place, the end of a chain is read as the thing that is fetched through the reference.** -/
theorem referable_iff_fetch (h : Json.resolveChain document.tree pointer = .ok value)
    {entry : Referable α} :
    referable decoder value = .ok entry
      ↔ ∃ item, entry = .inline item ∧ document.fetch decoder (.reference pointer) = .ok item := by
  have hnone : (value.field? "$ref").bind Json.string? = none := referenceIn?_of_resolveChain h
  rw [fetch_reference h]
  simp only [decodeFrom_eq_ok, referable, hnone]
  cases decoder value <;> simp [fail, eq_comm]

/-- One value may stand for another in a place for a thing: it is the same, or it is what the other
one refers to, through any number of references, and the thing can be fetched there. -/
inductive Inlines (document : Document) (decoder : Decoder α) : Json → Json → Prop
  | kept (value : Json) : document.Inlines decoder value value
  | inlined {before after : Json} {pointer : String} {item : α}
      (hpointer : Json.referenceIn? before = some pointer)
      (htarget : Json.resolveChain document.tree pointer = .ok after)
      (hitem : document.fetch decoder (.reference pointer) = .ok item) :
      document.Inlines decoder before after

/-- What is fetched from a place does not depend on which of the two values stands there. -/
theorem respects_inlines (document : Document) (decoder : Decoder α) :
    Respects (referable decoder) (document.Inlines decoder)
      fun first second => document.fetch decoder first = document.fetch decoder second := by
  rintro before after (_ | ⟨hpointer, htarget, hitem⟩) first hfirst
  · exact ⟨first, hfirst, rfl⟩
  · rename_i pointer item
    have hreference : first = .reference pointer := by
      unfold referable at hfirst
      rw [show (before.field? "$ref").bind Json.string? = some pointer from hpointer] at hfirst
      cases hfirst
      rfl
    refine ⟨.inline item, (referable_iff_fetch htarget).mpr ⟨item, rfl, hitem⟩, ?_⟩
    rw [hreference]
    exact hitem

end Document

/-! ### Operations -/

namespace Document

variable {before after : Json}

/-- Two values of the field `name` of an operation: the same one, or one in which what is referred
to stands in place of some of the references. -/
def InlinesField (document : Document) (name : String) (before after : Json) : Prop :=
  before = after
    ∨ name = "parameters" ∧ Json.OnItems (document.Inlines OpenApi.parameter.decode) before after
    ∨ name = "requestBody" ∧ document.Inlines OpenApi.requestBody.decode before after
    ∨ name = "responses" ∧ Json.OnValues (document.Inlines OpenApi.response.decode) before after

/-- An operation, and the same one with what is referred to in place of some of the references to
parameters, to its request body and to responses. -/
def InlinesIn (document : Document) : Json → Json → Prop :=
  OpenApi.operation.OnFields document.InlinesField

theorem Inlines.of_decode {decoder : Decoder α} {pointer : String} {item : α}
    (hpointer : Json.referenceIn? before = some pointer)
    (htarget : Json.resolveChain document.tree pointer = .ok after)
    (hitem : decoder after = .ok item) : document.Inlines decoder before after :=
  .inlined hpointer htarget ((fetch_reference htarget).trans (decodeFrom_eq_ok.mpr hitem))

/-- Where a thing is decoded there is no null, neither as the reference nor as its target. -/
theorem Inlines.null_iff {record : Record α} (h : document.Inlines record.decode before after) :
    before = .null ↔ after = .null := by
  obtain _ | ⟨hpointer, htarget, hitem⟩ := h
  · exact Iff.rfl
  · refine ⟨fun hnull => ?_, fun hnull => ?_⟩
    · subst hnull
      cases hpointer
    · subst hnull
      rw [fetch_reference htarget, decodeFrom_eq_ok] at hitem
      cases hitem

end Document

/-- Two operations that say the same, where from the places that may hold a reference the same is
fetched. -/
structure Operation.FetchesAlike (document : Document) (first second : Operation) : Prop where
  summary : first.summary = second.summary
  description : first.description = second.description
  deprecated : first.deprecated = second.deprecated
  parameters : first.parameters.map (document.fetch OpenApi.parameter.decode)
    = second.parameters.map (document.fetch OpenApi.parameter.decode)
  requestBody : first.requestBody.map (document.fetch OpenApi.requestBody.decode)
    = second.requestBody.map (document.fetch OpenApi.requestBody.decode)
  responses : first.responses.map (List.map (Prod.map id (document.fetch OpenApi.response.decode)))
    = second.responses.map (List.map (Prod.map id (document.fetch OpenApi.response.decode)))

theorem Operation.fetchesAlike_self (operation : Operation) :
    operation.FetchesAlike document operation :=
  ⟨rfl, rfl, rfl, rfl, rfl, rfl⟩

namespace Document

theorem respects_parameters (document : Document) :
    Respects OpenApi.parameters (document.InlinesField "parameters") fun first second =>
      first.map (document.fetch OpenApi.parameter.decode)
        = second.map (document.fetch OpenApi.parameter.decode) := by
  rintro before after (rfl | ⟨-, hitems⟩ | ⟨hname, -⟩ | ⟨hname, -⟩) first hfirst
  · exact ⟨first, hfirst, rfl⟩
  · obtain ⟨second, hsecond, halike⟩ :=
      respects_list (document.respects_inlines _) before after hitems first hfirst
    refine ⟨second, hsecond, ?_⟩
    show first.map _ = second.map _
    rw [← List.forall₂_eq_eq_eq, List.forall₂_map_left_iff, List.forall₂_map_right_iff]
    exact halike
  · exact absurd hname (by decide)
  · exact absurd hname (by decide)

theorem respects_requestBody (document : Document) :
    Respects (optional (referable OpenApi.requestBody.decode)) (document.InlinesField "requestBody")
      fun first second => first.map (document.fetch OpenApi.requestBody.decode)
        = second.map (document.fetch OpenApi.requestBody.decode) := by
  rintro before after (rfl | ⟨hname, -⟩ | ⟨-, hvalue⟩ | ⟨hname, -⟩) first hfirst
  · exact ⟨first, hfirst, rfl⟩
  · exact absurd hname (by decide)
  · obtain ⟨second, hsecond, halike⟩ := respects_optional (document.respects_inlines _)
      (fun _ _ h => h.null_iff) before after hvalue first hfirst
    refine ⟨second, hsecond, ?_⟩
    cases halike with
    | none => rfl
    | some h => exact congrArg some h
  · exact absurd hname (by decide)

theorem respects_responses (document : Document) :
    Respects (optional (entries (referable OpenApi.response.decode)))
      (document.InlinesField "responses") fun first second =>
        first.map (List.map (Prod.map id (document.fetch OpenApi.response.decode)))
          = second.map (List.map (Prod.map id (document.fetch OpenApi.response.decode))) := by
  rintro before after (rfl | ⟨hname, -⟩ | ⟨hname, -⟩ | ⟨-, hvalues⟩) first hfirst
  · exact ⟨first, hfirst, rfl⟩
  · exact absurd hname (by decide)
  · exact absurd hname (by decide)
  · have hnull : ∀ before after,
        Json.OnValues (document.Inlines OpenApi.response.decode) before after →
          (before = .null ↔ after = .null) := by
      rintro _ _ ⟨_⟩
      simp
    obtain ⟨second, hsecond, halike⟩ := respects_optional
      (respects_entries (document.respects_inlines _)) hnull before after hvalues first hfirst
    refine ⟨second, hsecond, ?_⟩
    cases halike with
    | none => rfl
    | some h =>
        refine congrArg some ?_
        rw [← List.forall₂_eq_eq_eq, List.forall₂_map_left_iff, List.forall₂_map_right_iff]
        exact h.imp fun _ _ hentry => Prod.ext hentry.1 hentry.2

/-- **With what is referred to in place of references, an operation is decoded alike.** -/
theorem respects_operation (document : Document) :
    Respects OpenApi.operation.decode document.InlinesIn (Operation.FetchesAlike document) := by
  have hsame : ∀ name ∈ ["summary", "description", "deprecated"], ∀ before after,
      document.InlinesField name before after → before = after := by
    rintro name hname before after (heq | ⟨rfl, -⟩ | ⟨rfl, -⟩ | ⟨rfl, -⟩)
    · exact heq
    all_goals exact absurd hname (by decide)
  refine respects_decode (Operation.fetchesAlike_self _) ?_
  simp only [OpenApi.operation, List.forall_mem_cons]
  refine ⟨?summary, ?description, ?deprecated, ?parameters, ?requestBody, ?responses, nofun⟩
  case summary =>
    exact respects_field (respects_of_eq _ (hsame _ (by simp)) fun _ => rfl)
      fun _ _ _ _ hitem h => { h with summary := hitem }
  case description =>
    exact respects_field (respects_of_eq _ (hsame _ (by simp)) fun _ => rfl)
      fun _ _ _ _ hitem h => { h with description := hitem }
  case deprecated =>
    exact respects_field (respects_of_eq _ (hsame _ (by simp)) fun _ => rfl)
      fun _ _ _ _ hitem h => { h with deprecated := hitem }
  case parameters =>
    exact respects_field document.respects_parameters
      fun _ _ _ _ hitem h => { h with parameters := hitem }
  case requestBody =>
    exact respects_field document.respects_requestBody
      fun _ _ _ _ hitem h => { h with requestBody := hitem }
  case responses =>
    exact respects_field document.respects_responses
      fun _ _ _ _ hitem h => { h with responses := hitem }

end Document
end OpenApi

/-! ### Overloads -/

theorem ParameterTable.add_congr {document : Document} {first second : List (Referable Parameter)}
    (h : first.map (document.fetch OpenApi.parameter.decode)
      = second.map (document.fetch OpenApi.parameter.decode)) (table : ParameterTable) :
    add document table first = add document table second := by
  induction first generalizing second table with
  | nil =>
      cases List.map_eq_nil_iff.mp h.symm
      rfl
  | cons entry first ih =>
      match second, h with
      | other :: second, h =>
          obtain ⟨hentry, hrest⟩ := List.cons.inj h
          rw [add, add, hentry]
          split
          · exact ih hrest _
          · rfl

namespace StatusCode

variable {α β : Type}

/-- Keys are read without a look at what stands under them. -/
theorem parseKeys_map (f : α → β) (entries : List (String × α)) :
    parseKeys (entries.map (Prod.map id f))
      = (parseKeys entries).map (List.map (Prod.map id f)) := by
  induction entries with
  | nil => rfl
  | cons entry entries ih =>
      obtain ⟨text, value⟩ := entry
      simp only [List.map_cons, Prod.map_apply, id_eq, parseKeys, ih]
      cases Key.ofText? text with
      | none => rfl
      | some key => cases parseKeys entries <;> rfl

theorem expand_map (registry : Registry) (f : α → β) (entries : List (String × α)) :
    expand registry (entries.map (Prod.map id f))
      = (expand registry entries).map (List.map (Prod.map id f)) := by
  simp only [expand, parseKeys_map]
  cases parseKeys entries with
  | error bad => rfl
  | ok keys => simp [Except.map, List.flatMap_map, Function.comp_def]

end StatusCode

namespace Overload

variable {document : Document}

theorem responseTypes_congr {first second : List (StatusCode.CodeSet × Referable Response)}
    (h : first.map (Prod.map id (document.fetch OpenApi.response.decode))
      = second.map (Prod.map id (document.fetch OpenApi.response.decode))) :
    responseTypes document first = responseTypes document second := by
  induction first generalizing second with
  | nil =>
      cases List.map_eq_nil_iff.mp h.symm
      rfl
  | cons entry first ih =>
      match second, h with
      | other :: second, h =>
          obtain ⟨hentry, hrest⟩ := List.cons.inj h
          obtain ⟨codes, entry⟩ := entry
          obtain ⟨otherCodes, other⟩ := other
          simp only [Prod.map_apply, id_eq, Prod.mk.injEq] at hentry
          obtain ⟨rfl, hfetch⟩ := hentry
          rw [responseTypes, responseTypes, hfetch, ih hrest]

/-- The types of responses, with what becomes of them, depend on the keys and on what is fetched. -/
theorem responses_congr {α : Type} {method : Method} {pattern : String}
    {first second : List (String × Referable Response)}
    (h : first.map (Prod.map id (document.fetch OpenApi.response.decode))
      = second.map (Prod.map id (document.fetch OpenApi.response.decode)))
    (next : List TypeExpr → Build α) :
    (Build.ofExcept (expandResponses method pattern first) >>= fun responses =>
        responseTypes document responses >>= next)
      = (Build.ofExcept (expandResponses method pattern second) >>= fun responses =>
        responseTypes document responses >>= next) := by
  have hexpand : (StatusCode.expand .standard first).map
        (List.map (Prod.map id (document.fetch OpenApi.response.decode)))
      = (StatusCode.expand .standard second).map
        (List.map (Prod.map id (document.fetch OpenApi.response.decode))) := by
    rw [← StatusCode.expand_map, h, StatusCode.expand_map]
  unfold expandResponses
  cases hfirst : StatusCode.expand .standard first <;>
    cases hsecond : StatusCode.expand .standard second <;>
    rw [hfirst, hsecond] at hexpand <;>
    simp only [Except.map, Except.error.injEq, Except.ok.injEq, reduceCtorEq] at hexpand
  case error.error => rw [hexpand]
  case ok.ok expanded others =>
    show responseTypes document expanded >>= next = responseTypes document others >>= next
    rw [responseTypes_congr hexpand]

/-- The request body of an operation, in place or behind a reference. -/
def fetchBody (document : Document) (operation : Operation) : Except Failure (Option RequestBody) :=
  match operation.requestBody with
  | none => .ok none
  | some entry => (document.fetch OpenApi.requestBody.decode entry).map some

theorem fetchBody_congr {first second : Operation} (h : first.FetchesAlike document second) :
    fetchBody document first = fetchBody document second := by
  have hfetch := h.requestBody
  unfold fetchBody
  cases hfirst : first.requestBody <;> cases hsecond : second.requestBody <;>
    rw [hfirst, hsecond] at hfetch <;>
    simp only [Option.map_none, Option.map_some, Option.some.injEq, reduceCtorEq] at hfetch
  case some.some => exact congrArg (Except.map some) hfetch

/-- What is built of an operation depends on what can be fetched from it and on nothing else. -/
theorem ofOperation_congr {first second : Operation} (h : first.FetchesAlike document second)
    (settings : Settings) (pattern : String) (shared : ParameterTable) (method : Method) :
    ofOperation document settings pattern shared method first
      = ofOperation document settings pattern shared method second := by
  have htable : shared.add? document first.parameters = shared.add? document second.parameters := by
    rw [ParameterTable.add?, ParameterTable.add?, ParameterTable.add_congr h.parameters]
  have hresponses : (first.responses.getD []).map
        (Prod.map id (document.fetch OpenApi.response.decode))
      = (second.responses.getD []).map (Prod.map id (document.fetch OpenApi.response.decode)) := by
    have hmap := congrArg (Option.getD · []) h.responses
    cases hfirst : first.responses <;> cases hsecond : second.responses <;>
      rw [hfirst, hsecond] at hmap <;> exact hmap
  have hdocs : docsOf first = docsOf second := by
    rw [docsOf, docsOf, h.summary, h.description, h.deprecated]
  unfold ofOperation
  rw [htable, hdocs]
  refine bind_congr fun table => ?_
  change Build.ofExcept (fetchBody document first) >>= _
    = Build.ofExcept (fetchBody document second) >>= _
  rw [fetchBody_congr h]
  exact bind_congr fun body => bind_congr fun bodies => responses_congr hresponses _

end Overload

namespace OpenApi.Document

/-- In a place for a thing, a value is read as an inline thing exactly if the thing can be fetched
through the reference, and it is read as that thing. -/
def ReadAlike {α : Type} (document : Document) (decoder : Decoder α) (pointer : String)
    (value : Json) : Prop :=
  ∀ entry, referable decoder value = .ok entry
    ↔ ∃ item, entry = .inline item ∧ document.fetch decoder (.reference pointer) = .ok item

/-- **References and the values they lead to are interchangeable.**  What stands at the end of a
chain is read in place as it is read through the chain.  And whichever references of an operation
are replaced by the values that they lead to, the operation is still decoded, and its overloads,
their order, the warnings and the failure are what they were. -/
theorem reference_or_inline (document : Document) :
    (∀ {pointer value}, Json.resolveChain document.tree pointer = .ok value →
      document.ReadAlike OpenApi.parameter.decode pointer value
        ∧ document.ReadAlike OpenApi.requestBody.decode pointer value
        ∧ document.ReadAlike OpenApi.response.decode pointer value)
      ∧ ∀ {before after operation}, document.InlinesIn before after →
        OpenApi.operation.decode before = .ok operation →
        ∃ inlined, OpenApi.operation.decode after = .ok inlined
          ∧ ∀ settings pattern shared method,
            Overload.ofOperation document settings pattern shared method inlined
              = Overload.ofOperation document settings pattern shared method operation := by
  refine ⟨fun h => ⟨fun _ => referable_iff_fetch h, fun _ => referable_iff_fetch h,
    fun _ => referable_iff_fetch h⟩, fun {before after operation} hinlines hbefore => ?_⟩
  obtain ⟨inlined, hafter, halike⟩ :=
    document.respects_operation before after hinlines operation hbefore
  exact ⟨inlined, hafter, fun settings pattern shared method =>
    (Overload.ofOperation_congr halike settings pattern shared method).symm⟩

/-- A parameter behind two references, the body and one of two responses are put in place; another
parameter and the other response stay behind their references. -/
theorem reference_or_inline_partly :
    let limit : Json := .object [("name", .string "limit"), ("in", .string "query")]
    let body : Json := .object [("content", .object [("text/plain", .object [])])]
    let done : Json := .object [("content", .object []), ("$ref", .null)]
    let reference (pointer : String) : Json := .object [("$ref", .string pointer)]
    let tree : Json := .object [("a", reference "#/b"), ("b", limit), ("c", body), ("d", done)]
    let document : Document := ⟨tree, {}⟩
    let before : Json := .object [
      ("parameters", .array [reference "#/a", reference "#/b"]),
      ("requestBody", reference "#/c"),
      ("responses", .object [("200", reference "#/d"), ("default", reference "#/d")])]
    let after : Json := .object [
      ("parameters", .array [limit, reference "#/b"]),
      ("requestBody", body),
      ("responses", .object [("200", reference "#/d"), ("default", done)])]
    ∃ operation, (Json.resolveChain document.tree "#/a" = .ok limit
        ∧ document.InlinesIn before after ∧ OpenApi.operation.decode before = .ok operation)
      ∧ document.ReadAlike OpenApi.parameter.decode "#/a" limit
      ∧ ∃ inlined, OpenApi.operation.decode after = .ok inlined
        ∧ ∀ settings pattern shared method,
          Overload.ofOperation document settings pattern shared method inlined
            = Overload.ofOperation document settings pattern shared method operation := by
  intro limit body done reference tree document before after
  have hlimit : Json.resolveChain document.tree "#/a" = .ok limit := by decide +kernel
  have hparameters : document.InlinesField "parameters"
      (.array [reference "#/a", reference "#/b"]) (.array [limit, reference "#/b"]) :=
    .inr (.inl ⟨rfl, .intro (.cons (.of_decode rfl hlimit rfl) (.cons (.kept _) .nil))⟩)
  have hbody : document.InlinesField "requestBody" (reference "#/c") body :=
    .inr (.inr (.inl ⟨rfl, .of_decode rfl (by decide +kernel) rfl⟩))
  have hresponses : document.InlinesField "responses"
      (.object [("200", reference "#/d"), ("default", reference "#/d")])
      (.object [("200", reference "#/d"), ("default", done)]) :=
    .inr (.inr (.inr ⟨rfl, .intro (.cons ⟨rfl, .kept _⟩
      (.cons ⟨rfl, .of_decode rfl (by decide +kernel) rfl⟩ .nil))⟩))
  have hinlines : document.InlinesIn before after :=
    .object (.cons ⟨rfl, hparameters⟩ (.cons ⟨rfl, hbody⟩ (.cons ⟨rfl, hresponses⟩ .nil)))
  obtain ⟨operation, hoperation⟩ : ∃ operation, OpenApi.operation.decode before = .ok operation :=
    ⟨_, rfl⟩
  exact ⟨operation, ⟨hlimit, hinlines, hoperation⟩,
    ((reference_or_inline document).1 hlimit).1,
    (reference_or_inline document).2 hinlines hoperation⟩

end OpenApi.Document
end ApiTypings
