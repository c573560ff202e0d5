/-
What a call loses that leaves out the second argument.

The argument may be left out for a `GET` without a request body.  So a body is never lost with it,
required or not.  Headers do not count for this: they stand in the type of the argument, and a
required header is a required member there, but a call that leaves out the argument gives none.
-/
import Mathlib
import ApiTypings.Proofs.PathOverloads

namespace ApiTypings.Overload

open OpenApi Inspect

variable {document : Document} {settings : Settings} {pattern : String}

/-! ### The headers -/

/-- The member of a header parameter. -/
def headerMember (header : Parameter) : Member where
  name := header.name
  type := (UrlTemplate.valueType false header).value
  isOptional := !header.required

theorem value_headerMembers (headers : List Parameter) :
    (headerMembers headers).value = headers.map headerMember :=
  traverses_headerMembers.value_eq fun header _ => UrlTemplate.appends_valueType false header

theorem value_headersType (table : ParameterTable) (contentType : Option String) :
    (headersType table contentType).value
      = (let headers := table.inLocation .header
        let members := contentTypeMember headers contentType ++ headers.map headerMember
        if members.isEmpty then none else some (.named "TypedHeadersInit" [.object members])) := by
  unfold headersType
  rw [(appends_headerMembers _).value_bind (by dsimp only; split <;> exact appends_pure _),
    value_headerMembers]
  dsimp only
  split <;> rfl

/-- Every header parameter has its member among the headers, optional unless it is required. -/
theorem exists_headerMember {table : ParameterTable} {header : Parameter}
    (hheader : header ∈ table.inLocation .header) (contentType : Option String) :
    ∃ fields,
      (headersType table contentType).value = some (.named "TypedHeadersInit" [.object fields])
        ∧ headerMember header ∈ fields := by
  have hfield : headerMember header ∈ contentTypeMember (table.inLocation .header) contentType
      ++ (table.inLocation .header).map headerMember :=
    List.mem_append_right _ (List.mem_map_of_mem hheader)
  refine ⟨_, ?_, hfield⟩
  rw [value_headersType]
  exact if_neg (by simpa using List.ne_nil_of_mem hfield)

/-! ### The second argument -/

/-- What the second argument of an overload asks for, if it is given.  The header parameters are
those of the declared ones that are kept, and nothing else is required of the headers but the content
type of a body. -/
structure InitMembers (origin : Origin) (declared : List Parameter) (members : List Member) :
    Prop where
  required : ∀ member ∈ members, member.isOptional = false
    ↔ member.name = "method" ∧ origin.common.method ≠ .get
      ∨ member.name = "body" ∧ (∃ body ∈ origin.common.body, body.required = true)
      ∨ member.name = "headers"
  body : (∃ member ∈ members, member.name = "body") ↔ origin.content.isSome
  headers : ∀ header, ParameterTable.Kept declared header → header.location = .header → ∃ fields,
    .property "headers" (.named "TypedHeadersInit" [.object fields]) ∈ members
      ∧ ∃ field ∈ fields, field.name = header.name ∧ field.isOptional = !header.required
  fields : ∀ fields, .property "headers" (.named "TypedHeadersInit" [.object fields]) ∈ members →
    ∀ field ∈ fields, field.isOptional = false →
      (∃ header, ParameterTable.Kept declared header ∧ header.location = .header
          ∧ header.required = true ∧ field.name = header.name)
        ∨ field.name = "Content-Type" ∧ origin.content.isSome

/-- When the second argument of an overload may be left out, and what is lost then. -/
structure InitOf (origin : Origin) (declared : List Parameter) (init : Argument) : Prop where
  name : init.name = "init"
  optional : init.isOptional = true
    ↔ origin.common.method = .get ∧ origin.operation.requestBody = none
  type : ∃ keys members,
    init.type = .intersection [without "RequestInit" keys, .object members]
      ∧ InitMembers origin declared members
      ∧ (init.isOptional = true → origin.common.body = none
        ∧ ∀ member ∈ members, member.isOptional = false → member.name = "headers")

/-- The members that the second argument of an overload has. -/
def initMembers (settings : Settings) (common : Common) (content : Option (String × MediaType)) :
    List Member :=
  { name := "method", type := .text common.method.upperName, isOptional := common.method = .get }
    :: (content.toList.map fun entry =>
      { name := "body"
        type := (typedContent settings entry).2
        isOptional := !(common.body.map (·.required)).getD false })
    ++ (headersType common.table (content.map Prod.fst)).value.toList.map (.property "headers")

/-- The second argument of the overload for a content. -/
def initOf (settings : Settings) (common : Common) (content : Option (String × MediaType)) :
    Argument :=
  initArgument common.method common.body
    (content.map fun entry => (typedContent settings entry).2)
    (headersType common.table (content.map Prod.fst)).value

theorem type_initOf (settings : Settings) (common : Common)
    (content : Option (String × MediaType)) :
    ∃ keys, (initOf settings common content).type = .intersection
      [without "RequestInit" keys, .object (initMembers settings common content)] := by
  cases content <;> exact ⟨_, rfl⟩

theorem exists_headers_mem_initMembers {common : Common} {header : Parameter}
    (hheader : header ∈ common.table.inLocation .header) (settings : Settings)
    (content : Option (String × MediaType)) :
    ∃ fields, .property "headers" (.named "TypedHeadersInit" [.object fields])
        ∈ initMembers settings common content ∧ headerMember header ∈ fields := by
  obtain ⟨fields, hfields, hfield⟩ := exists_headerMember hheader (content.map Prod.fst)
  refine ⟨fields, ?_, hfield⟩
  simp [initMembers, hfields]

theorem headersType_of_mem_initMembers {common : Common} {content : Option (String × MediaType)}
    {type : TypeExpr} (h : .property "headers" type ∈ initMembers settings common content) :
    (headersType common.table (content.map Prod.fst)).value = some type := by
  simp only [initMembers, List.cons_append, List.mem_cons, List.mem_append, List.mem_map] at h
  rcases h with h | ⟨entry, -, h⟩ | ⟨found, hfound, h⟩
  · exact absurd (congrArg Member.name h) (by simp [Member.property])
  · exact absurd (congrArg Member.name h) (by simp [Member.property])
  · cases h
    exact Option.mem_toList.mp hfound

/-- Among the headers stand those of the parameters and perhaps the content type. -/
theorem mem_fields_of_headersType {table : ParameterTable} {contentType : Option String}
    {fields : List Member}
    (h : (headersType table contentType).value = some (.named "TypedHeadersInit" [.object fields]))
    {field : Member} (hfield : field ∈ fields) :
    (∃ header ∈ table.inLocation .header, field = headerMember header)
      ∨ field.name = "Content-Type" ∧ contentType.isSome := by
  rw [value_headersType] at h
  dsimp only at h
  split at h
  · cases h
  · cases h
    rcases List.mem_append.mp hfield with hfield | hfield
    · refine .inr ?_
      unfold contentTypeMember at hfield
      split at hfield
      · cases hfield
      · split at hfield
        · cases hfield
        · rw [List.mem_singleton.mp hfield]
          exact ⟨rfl, rfl⟩
    · obtain ⟨header, hheader, rfl⟩ := List.mem_map.mp hfield
      exact .inl ⟨header, hheader, rfl⟩

theorem initMembers_of (settings : Settings) {origin : Origin} {declared : List Parameter}
    (htable : origin.common.table = declared.foldl ParameterTable.insert []) :
    InitMembers origin declared (initMembers settings origin.common origin.content) where
  required member hmember := by
    simp only [initMembers, List.cons_append, List.mem_cons, List.mem_append, List.mem_map]
      at hmember
    rcases hmember with rfl | ⟨entry, -, rfl⟩ | ⟨headers, -, rfl⟩
    · simp
    · cases origin.common.body <;> simp
    · simp [Member.property]
  body := by
    cases hcontent : origin.content <;> simp [initMembers, Member.property]
  headers header hkept hlocation := by
    have hheader := ParameterTable.mem_inLocation_iff.mpr ⟨hkept, hlocation⟩
    rw [← htable] at hheader
    obtain ⟨fields, hmember, hfield⟩ :=
      exists_headers_mem_initMembers hheader settings origin.content
    exact ⟨fields, hmember, headerMember header, hfield, rfl, rfl⟩
  fields fields hmember field hfield hrequired := by
    obtain ⟨header, hheader, rfl⟩ | ⟨hname, hcontent⟩ :=
      mem_fields_of_headersType (headersType_of_mem_initMembers hmember) hfield
    · rw [htable] at hheader
      obtain ⟨hkept, hlocation⟩ := ParameterTable.mem_inLocation_iff.mp hheader
      exact .inl ⟨header, hkept, hlocation, by simpa [headerMember] using hrequired, rfl⟩
    · exact .inr ⟨hname, by simpa using hcontent⟩

/-- An operation has no body exactly if it declares none. -/
theorem fetchBody_eq_none {operation : Operation} {body : Option RequestBody}
    (h : fetchBody document operation = .ok body) : body = none ↔ operation.requestBody = none := by
  unfold fetchBody at h
  split at h
  · rename_i hnone
    cases h
    exact iff_of_true rfl hnone
  · rename_i entry hentry
    rw [hentry]
    cases hfetch : document.fetch OpenApi.requestBody.decode entry with
    | error failure => rw [hfetch] at h; cases h
    | ok found =>
        rw [hfetch] at h
        cases h
        exact iff_of_false nofun nofun

theorem isOptional_initOf {common : Common} {content : Option (String × MediaType)} :
    (initOf settings common content).isOptional = true
      ↔ common.method = .get ∧ common.body = none := by
  simp [initOf, initArgument]

theorem initOf_of (settings : Settings) {origin : Origin} {declared : List Parameter}
    (htable : origin.common.table = declared.foldl ParameterTable.insert [])
    (hbody : fetchBody document origin.operation = .ok origin.common.body) :
    InitOf origin declared (initOf settings origin.common origin.content) where
  name := rfl
  optional := by rw [← fetchBody_eq_none hbody, isOptional_initOf]
  type := by
    obtain ⟨keys, htype⟩ := type_initOf settings origin.common origin.content
    have hmembers := initMembers_of settings htable
    refine ⟨keys, _, htype, hmembers, fun hoptional => ?_⟩
    obtain ⟨hmethod, hnone⟩ := isOptional_initOf.mp hoptional
    refine ⟨hnone, fun member hmember hrequired => ?_⟩
    rcases (hmembers.required member hmember).mp hrequired
      with ⟨-, hne⟩ | ⟨-, body, hsome, -⟩ | hheaders
    · exact absurd hmethod hne
    · rw [hnone] at hsome
      cases hsome
    · exact hheaders

/-- **A call that leaves out the second argument loses headers only.** It may do so exactly for a
`GET` whose operation declares no request body, and then the headers are all that the argument
requires.  If it is given, a required body is required in it, and so is each required header of the
operation, whether it comes from the path item or the operation and through a reference or not, that
no later parameter of the same name replaces. -/
theorem init_of_signature {item : PathItem} {result : List Signature × List Warning}
    (h : ofPathItem document settings pattern item = .ok result) :
    ∀ signature ∈ result.1, ∃ origin : Origin, ∃ declared input init,
      origin.Makes document settings pattern item signature
        ∧ ParameterTable.Declares document
          (origin.item.parameters.getD [] ++ origin.operation.parameters) declared
        ∧ signature.arguments = [input, init] ∧ input.isOptional = false
        ∧ InitOf origin declared init := by
  intro signature hsignature
  obtain ⟨origin, hmakes⟩ := exists_origin h hsignature
  obtain ⟨declared, hdeclares, htable⟩ := hmakes.exists_declares
  obtain ⟨-, -, hbody, -⟩ := commonOf_eq_ok hmakes.common
  have harguments : signature.arguments = [{ name := "input", type := origin.common.input },
      initOf settings origin.common origin.content] := by
    rw [hmakes.overload]
    rfl
  exact ⟨origin, declared, _, _, hmakes, hdeclares, harguments, rfl,
    initOf_of settings htable hbody⟩

/-- A path with a required header and one that a query parameter of the operation replaces, and an
operation with an optional header and without a body. -/
theorem init_of_signature_pets :
    ∃ item result, OpenApi.pathItem.decode (.object [
        ("parameters", .array [
          .object [("name", .string "X-Key"), ("in", .string "header"),
            ("required", .boolean true)],
          .object [("name", .string "tag"), ("in", .string "header"),
            ("required", .boolean true)]]),
        ("get", .object [("parameters", .array [
          .object [("name", .string "X-Trace"), ("in", .string "header"),
            ("schema", .object [("type", .string "integer")])],
          .object [("name", .string "tag"), ("in", .string "query")]])])]) = .ok item
      ∧ ofPathItem ⟨.object [], {}⟩ .relative "/pets" item = .ok result
      ∧ (∀ signature ∈ result.1, ∃ origin : Origin, ∃ declared input init,
        origin.Makes ⟨.object [], {}⟩ .relative "/pets" item signature
          ∧ ParameterTable.Declares ⟨.object [], {}⟩
            (origin.item.parameters.getD [] ++ origin.operation.parameters) declared
          ∧ signature.arguments = [input, init] ∧ input.isOptional = false
          ∧ InitOf origin declared init)
      ∧ result.1.map (fun signature => signature.arguments[1]?) = [some {
          name := "init"
          isOptional := true
          type := .intersection [
            .named "Omit" [.name "RequestInit", .union [.text "method", .text "body",
              .text "headers"]],
            .object [
              { name := "method", type := .text "GET", isOptional := true },
              .property "headers" (.named "TypedHeadersInit" [.object [
                .property "X-Key" .string,
                { name := "X-Trace", type := .number, isOptional := true }]])]] }] := by
  refine ⟨_, _, rfl, rfl, ?_, rfl⟩
  exact init_of_signature rfl

/-- A required header is lost with the second argument. -/
theorem init_loses_required_header :
    ∃ item operation header, OpenApi.pathItem.decode (.object [("get", .object [
        ("parameters", .array [.object [("name", .string "X-Key"), ("in", .string "header"),
          ("required", .boolean true)]])])]) = .ok item
      ∧ item.slots .get = .operation operation ∧ operation.parameters = [.inline header]
      ∧ header.location = .header ∧ header.required = true
      ∧ (ofPathItem ⟨.object [], {}⟩ .relative "/pets" item).map
          (fun result => result.1.map fun signature => signature.arguments[1]?)
        = .ok [some {
          name := "init"
          isOptional := true
          type := .intersection [
            .named "Omit" [.name "RequestInit", .union [.text "method", .text "body",
              .text "headers"]],
            .object [
              { name := "method", type := .text "GET", isOptional := true },
              .property "headers" (.named "TypedHeadersInit" [.object [
                .property "X-Key" .string]])]] }] :=
  ⟨_, _, _, rfl, rfl, rfl, rfl, rfl, rfl⟩

end ApiTypings.Overload
