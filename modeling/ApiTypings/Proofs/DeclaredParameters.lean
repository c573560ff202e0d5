/-
Which declared parameters an overload has.

Parameters are declared in two lists, one of the path and one of the operation, in place or behind
references.  They are put into one table under their names, the second list after the first, and
whatever is made of parameters is made from the table.  So a parameter is kept exactly until one of
the same name comes, wherever that one travels: in the path, in the query or among the headers.

What is kept is found in the overload.  A parameter of the path gives a type wherever its name
stands in braces, in each of the accepted URLs.  One of the query gives a field of the query in each
of them, and a header gives a member of the second argument.
-/
import Mathlib
import ApiTypings.Proofs.InitArguments
import ApiTypings.Proofs.PathTemplates

namespace ApiTypings

open OpenApi

/-! ### URLs -/

namespace UrlTemplate

variable {document : Document} {settings : Settings} {pattern : String} {table : ParameterTable}

/-- The first argument takes one of the forms of a URL, with the path behind it. -/
theorem input_eq_ok {path : List TemplatePart} {type : TypeExpr}
    (h : input document settings path = .ok type) :
    forms document settings ≠ []
      ∧ type = .ofUnion (((forms document settings).map fun form =>
        TemplatePart.prefixed form path).map TypeExpr.template) := by
  rw [input] at h
  split at h
  · cases h
  · rename_i hforms
    cases h
    refine ⟨hforms, ?_⟩
    rw [List.map_map]
    rfl

/-- A form of a URL in front of a path, whose parts may be those of another spelling. -/
theorem prefixed_path {pieces : List PatternPiece}
    (hpieces : TemplatePart.merge ((PatternPiece.ofPattern pattern).map (partOf table))
      = TemplatePart.merge (pieces.map (partOf table))) (form : List TemplatePart) :
    TemplatePart.prefixed form (path pattern table).value
      = TemplatePart.prefixed form
        (pieces.map (partOf table) ++ queryOf (table.inLocation .query)) := by
  have hparts : (path pattern table).value
      = TemplatePart.merge (pieces.map (partOf table) ++ queryOf (table.inLocation .query)) := by
    rw [value_path, ← TemplatePart.merge_merge_append, hpieces, TemplatePart.merge_merge_append]
  rw [hparts, TemplatePart.prefixed_merge]

/-- **The type of a path parameter stands in each URL where its name stands in the pattern.** -/
theorem exists_type_in_url {front back : List PatternPiece} {parameter : Parameter}
    {name : String}
    (hspelled : PatternPiece.Spelled (front ++ .braced name.toList :: back) pattern.toList)
    (hlookup : Json.lookup name table = some parameter) (hpath : parameter.location = .path)
    (form : List TemplatePart) :
    ∃ rest, TemplatePart.prefixed form (path pattern table).value
      = TemplatePart.prefixed form (front.map (partOf table))
        ++ .type (typeOf false parameter) :: rest := by
  have hpart : partOf table (.braced name.toList) = .type (typeOf false parameter) := by
    rw [partOf, String.ofList_toList, pathParameter?_eq_some_iff.mpr ⟨hlookup, hpath⟩]
  refine ⟨TemplatePart.merge (back.map (partOf table) ++ queryOf (table.inLocation .query)), ?_⟩
  rw [prefixed_path (merge_ofPattern hspelled table) form, List.map_append, List.map_cons, hpart,
    ← TemplatePart.prefixed_type, List.append_assoc, List.cons_append]

/-- **Each URL ends with a query that has a field for the parameter.** -/
theorem exists_field_in_url {parameter : Parameter} (h : parameter ∈ table.inLocation .query)
    (form : List TemplatePart) :
    ∃ start fields, queryField parameter ∈ fields
      ∧ (TemplatePart.prefixed form (path pattern table).value
          = start ++ [.type (queryType fields)]
        ∨ TemplatePart.prefixed form (path pattern table).value
          = start ++ [.type (.union [.template [.text "?", .type (queryType fields)],
            .text ""])]) := by
  have hfield : queryField parameter ∈ (table.inLocation .query).map queryField :=
    List.mem_map_of_mem h
  obtain ⟨front, last, hquery, hlast⟩ := exists_queryOf_eq (List.ne_nil_of_mem h)
  have hurl : TemplatePart.prefixed form (path pattern table).value
      = TemplatePart.prefixed form ((PatternPiece.ofPattern pattern).map (partOf table) ++ front)
        ++ [.type last] := by
    rw [prefixed_path rfl, hquery, ← List.append_assoc, TemplatePart.prefixed_type]
    rfl
  rw [hurl]
  exact ⟨_, _, hfield, hlast.imp (fun h => by rw [h]) fun h => by rw [h]⟩

end UrlTemplate

/-! ### Overloads -/

namespace Overload

open Inspect

variable {document : Document} {settings : Settings} {pattern : String} {shared : ParameterTable}
  {method : Method} {operation : Operation} {common : Common}

theorem input_of_commonOf
    (h : commonOf document settings pattern shared method operation = .ok common) :
    UrlTemplate.input document settings (UrlTemplate.path pattern common.table).value
      = .ok common.input := by
  obtain ⟨table, body, responses, types, input, -, -, -, -, hinput, rfl⟩ :=
    exists_steps_of_commonOf h
  exact hinput

/-- Where a parameter is found in the arguments of an overload, given the URLs that the first one
accepts and the second one. -/
structure Represented (document : Document) (settings : Settings) (pattern : String)
    (table : ParameterTable) (urls : List (List TemplatePart)) (init : Argument)
    (parameter : Parameter) : Prop where
  path : parameter.location = .path → ∀ front back,
    PatternPiece.Spelled (front ++ .braced parameter.name.toList :: back) pattern.toList →
      ∀ url ∈ urls, ∃ form ∈ UrlTemplate.forms document settings, ∃ rest,
        url = TemplatePart.prefixed form (front.map (UrlTemplate.partOf table))
          ++ .type (UrlTemplate.typeOf false parameter) :: rest
  query : parameter.location = .query → ∀ url ∈ urls, ∃ start fields,
    UrlTemplate.queryField parameter ∈ fields
      ∧ (url = start ++ [.type (UrlTemplate.queryType fields)]
        ∨ url = start ++ [.type (.union [.template [.text "?",
          .type (UrlTemplate.queryType fields)], .text ""])])
  header : parameter.location = .header → ∃ keys members fields,
    init.type = .intersection [without "RequestInit" keys, .object members]
      ∧ .property "headers" (.named "TypedHeadersInit" [.object fields]) ∈ members
      ∧ headerMember parameter ∈ fields

theorem represented_of_table {declared : List Parameter}
    (htable : common.table = declared.foldl ParameterTable.insert []) {parameter : Parameter}
    (hkept : ParameterTable.Kept declared parameter) (content : Option (String × MediaType)) :
    Represented document settings pattern common.table
      ((UrlTemplate.forms document settings).map fun form =>
        TemplatePart.prefixed form (UrlTemplate.path pattern common.table).value)
      (initOf settings common content) parameter where
  path hlocation front back hspelled url hurl := by
    obtain ⟨form, hform, rfl⟩ := List.mem_map.mp hurl
    have hlookup := ParameterTable.lookup_of_kept hkept []
    rw [← htable] at hlookup
    exact ⟨form, hform, UrlTemplate.exists_type_in_url hspelled hlookup hlocation form⟩
  query hlocation url hurl := by
    obtain ⟨form, -, rfl⟩ := List.mem_map.mp hurl
    have hquery := ParameterTable.mem_inLocation_iff.mpr ⟨hkept, hlocation⟩
    rw [← htable] at hquery
    exact UrlTemplate.exists_field_in_url hquery form
  header hlocation := by
    have hheader := ParameterTable.mem_inLocation_iff.mpr ⟨hkept, hlocation⟩
    rw [← htable] at hheader
    obtain ⟨keys, htype⟩ := type_initOf settings common content
    obtain ⟨fields, hmember, hfield⟩ := exists_headers_mem_initMembers hheader settings content
    exact ⟨keys, _, fields, htype, hmember, hfield⟩

/-- **No parameter is lost but to a later one of its name.**  An overload has the parameters that
its path declares and those of its operation, and each of them is found in its arguments unless one
of the same name is declared behind it. -/
theorem represented_of_kept {item : PathItem} {result : List Signature × List Warning}
    (h : ofPathItem document settings pattern item = .ok result) :
    ∀ signature ∈ result.1, ∃ origin : Origin, ∃ declared urls input init,
      origin.Makes document settings pattern item signature
        ∧ ParameterTable.Declares document
          (origin.item.parameters.getD [] ++ origin.operation.parameters) declared
        ∧ signature.arguments = [input, init]
        ∧ urls ≠ [] ∧ input.type = .ofUnion (urls.map TypeExpr.template)
        ∧ ∀ parameter, ParameterTable.Kept declared parameter →
          Represented document settings pattern origin.common.table urls init parameter := by
  intro signature hsignature
  obtain ⟨origin, hmakes⟩ := exists_origin h hsignature
  obtain ⟨declared, hdeclares, htable⟩ := hmakes.exists_declares
  obtain ⟨hforms, hinput⟩ := UrlTemplate.input_eq_ok (input_of_commonOf hmakes.common)
  have harguments : signature.arguments = [{ name := "input", type := origin.common.input },
      initOf settings origin.common origin.content] := by
    rw [hmakes.overload]
    rfl
  refine ⟨origin, declared, _, _, _, hmakes, hdeclares, harguments, ?_, hinput, ?_⟩
  · exact mt List.map_eq_nil_iff.mp hforms
  · exact fun parameter hkept => represented_of_table htable hkept origin.content

/-- A path with a parameter in it, for an operation with a query and a header. -/
theorem represented_of_kept_pets :
    let document : Document := ⟨.object [], {}⟩
    let pattern := "/pets/\x7bid\x7d"
    let id : Parameter := { name := "id", location := .path, required := true }
    let limit : Parameter := { name := "limit", location := .query }
    let trace : Parameter := { name := "X-Trace", location := .header }
    let operation : Operation := { parameters := [.inline limit, .inline trace] }
    let item : PathItem := { parameters := some [.inline id] }
    ∃ result, ofPathItem document .relative pattern (item.withSlot .get (.operation operation))
        = .ok result
      ∧ result.1.length = 1
      ∧ ∀ signature ∈ result.1, ∃ table urls input init, signature.arguments = [input, init]
        ∧ urls ≠ [] ∧ input.type = .ofUnion (urls.map TypeExpr.template)
        ∧ ∀ parameter ∈ [id, limit, trace],
          Represented document .relative pattern table urls init parameter := by
  intro document pattern id limit trace operation item
  obtain ⟨result, h, hlength⟩ : ∃ result,
      ofPathItem document .relative pattern (item.withSlot .get (.operation operation)) = .ok result
        ∧ result.1.length = 1 := ⟨_, rfl, rfl⟩
  refine ⟨result, h, hlength, fun signature hsignature => ?_⟩
  obtain ⟨origin, declared, urls, input, init, hmakes, hdeclares, harguments, hurls, hinput,
    hkept⟩ := represented_of_kept h signature hsignature
  have hitem : item.withSlot .get (.operation operation) = origin.item :=
    (hmakes.item.eq_of_none rfl).symm
  -- No method but the one of the operation has a slot that holds one.
  have hoperation : operation = origin.operation := by
    have hslot := hmakes.operation
    rw [← hitem] at hslot
    cases hmethod : origin.common.method <;> rw [hmethod] at hslot <;> injection hslot
  rw [← hitem, ← hoperation] at hdeclares
  have hdeclared : declared = [id, limit, trace] := ParameterTable.Declares.eq_of_inline hdeclares
  refine ⟨origin.common.table, urls, input, init, harguments, hurls, hinput, ?_⟩
  intro parameter hparameter
  refine hkept parameter ?_
  rw [hdeclared]
  exact ParameterTable.kept_of_nodup (by decide) hparameter

/-- A parameter of the path is lost to one of the query that has its name: the braces stay in the
URL. -/
theorem path_parameter_lost :
    let document : Document := ⟨.object [], {}⟩
    let pattern := "/pets/\x7bid\x7d"
    let query : TypeExpr := UrlTemplate.queryType
      [{ name := "id", type := .string, isOptional := true }]
    ∃ item operation shared own result, OpenApi.pathItem.decode (.object [
        ("parameters", .array [.object [("name", .string "id"), ("in", .string "path"),
          ("required", .boolean true)]]),
        ("get", .object [("parameters", .array [
          .object [("name", .string "id"), ("in", .string "query")]])])]) = .ok item
      ∧ item.parameters = some [.inline shared] ∧ item.slots .get = .operation operation
      ∧ operation.parameters = [.inline own]
      ∧ shared.name = "id" ∧ shared.location = .path
      ∧ own.name = "id" ∧ own.location = .query
      ∧ ofPathItem document .relative pattern item = .ok result
      ∧ result.1.map (fun signature => signature.arguments.head?.map (·.type))
        = [some (.template [.text "/pets/\x7bid\x7d",
          .type (.union [.template [.text "?", .type query], .text ""])])] :=
  ⟨_, _, _, _, _, rfl, rfl, rfl, rfl, rfl, rfl, rfl, rfl, rfl, rfl⟩

end Overload
end ApiTypings
