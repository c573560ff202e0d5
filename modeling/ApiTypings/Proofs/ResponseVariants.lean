/-
The variants of a response are listed one by one.

A return type is put together on two levels: each declared response has the union of its variants,
one for each content type, and the operation returns the union of these unions, beside what is left
of a response without them.  A union takes the members of unions in their place and collapses if
there is one member only.  All that is joined here are object types, so nothing else happens: the
alternatives are the variants of all keys, key by key and content by content, in the order in which
they are declared.

A variant begins with what its key says of the status and goes on with what its content offers.
This depends on the content type alone, on the part in front of its parameters without regard to
blanks and case.
-/
import Mathlib
import ApiTypings.Proofs.ResponseBranches

namespace ApiTypings

open OpenApi Inspect

/-! ### Content types -/

namespace Text

/-- `core` is what is left of a text without the blanks around it. -/
structure Trims (text core : List Char) : Prop where
  blanks : ∃ left right, text = left ++ core ++ right ∧ ∀ c ∈ left ++ right, isBlank c = true
  first : ∀ c ∈ core.head?, isBlank c = false
  last : ∀ c ∈ core.getLast?, isBlank c = false

theorem not_isBlank_of_head?_dropWhile {text : List Char} {c : Char}
    (h : c ∈ (text.dropWhile isBlank).head?) : isBlank c = false := by
  rw [← List.find?_not_eq_head?_dropWhile] at h
  simpa using List.find?_some h

theorem trims_trim (text : String) : Trims text.toList (trim text).toList := by
  have hcore : (trim text).toList = (text.toList.dropWhile isBlank).rdropWhile isBlank := by
    rw [trim, String.toList_ofList]
    rfl
  have hsplit : (trim text).toList ++ (text.toList.dropWhile isBlank).rtakeWhile isBlank
      = text.toList.dropWhile isBlank := by
    rw [hcore, List.rdropWhile_append_rtakeWhile]
  refine ⟨⟨text.toList.takeWhile isBlank, (text.toList.dropWhile isBlank).rtakeWhile isBlank,
    ?_, fun c hc => ?_⟩, fun c hc => ?_, fun c hc => ?_⟩
  · rw [List.append_assoc, hsplit, List.takeWhile_append_dropWhile]
  · exact (List.mem_append.mp hc).elim List.mem_takeWhile_imp List.mem_rtakeWhile_imp
  · have hfirst : c ∈ (text.toList.dropWhile isBlank).head? := by
      rw [← hsplit, List.head?_append, Option.mem_def.mp hc]
      rfl
    exact not_isBlank_of_head?_dropWhile hfirst
  · rw [hcore, List.rdropWhile, List.getLast?_reverse] at hc
    exact not_isBlank_of_head?_dropWhile hc

end Text

namespace ContentKind

/-- The essence of a content type is what stands in front of its parameters, without the blanks
around it and in lower case. -/
def IsEssence (contentType essence : String) : Prop :=
  ∃ front core parameters, contentType.toList = front ++ parameters
    ∧ ';' ∉ front ∧ (∀ c ∈ parameters.head?, c = ';')
    ∧ Text.Trims front core ∧ essence.toList = core.map Text.toLower

theorem isEssence_essence (contentType : String) : IsEssence contentType (essence contentType) := by
  refine ⟨contentType.toList.takeWhile (· ≠ ';'), _, contentType.toList.dropWhile (· ≠ ';'),
    List.takeWhile_append_dropWhile.symm, fun h => ?_, fun c hc => ?_, ?_, String.toList_ofList⟩
  · simpa using List.mem_takeWhile_imp h
  · rw [← List.find?_not_eq_head?_dropWhile] at hc
    simpa using List.find?_some hc
  · simpa only [String.toList_ofList] using Text.trims_trim (String.ofList _)

/-- An essence of JSON: that of JSON itself, or of an application whose type has the suffix. -/
def IsJson (essence : String) : Prop :=
  essence = "application/json"
    ∨ ∃ middle, essence.toList = "application/".toList ++ middle ++ "+json".toList

/-- The start and the suffix do not overlap, since neither has a plus sign and a slash. -/
theorem isJsonSuffixed_iff {essence : String} : isJsonSuffixed essence = true
    ↔ ∃ middle, essence.toList = "application/".toList ++ middle ++ "+json".toList := by
  rw [isJsonSuffixed, Bool.and_eq_true, List.isPrefixOf_iff_prefix, List.isSuffixOf_iff_suffix]
  constructor
  · rintro ⟨⟨rest, hstart⟩, start, hsuffix⟩
    rcases List.append_eq_append_iff.mp (hstart.trans hsuffix.symm)
      with ⟨middle, -, hrest⟩ | ⟨overlap, hfront, hback⟩
    · exact ⟨middle, by rw [← hstart, hrest, List.append_assoc]⟩
    · cases overlap with
      | nil => exact ⟨[], by rw [← hstart, ← List.nil_append rest, ← hback]; rfl⟩
      | cons c overlap =>
          have hplus : c = '+' := (List.cons.inj hback).1.symm
          have hmem : c ∈ "application/".toList := hfront ▸ by simp
          rw [hplus] at hmem
          exact absurd hmem (by decide)
  · rintro ⟨middle, hessence⟩
    rw [hessence]
    exact ⟨⟨_, (List.append_assoc _ _ _).symm⟩, _, rfl⟩

end ContentKind

/-! ### The variants of one response -/

namespace TypeExpr

variable {codes : StatusCode.CodeSet} {response : Response}

/-- What a response offers for a content of the essence and, if this is JSON, of the type. -/
inductive Accessors (type : TypeExpr) : String → List Member → Prop
  | json {essence : String} (h : ContentKind.IsJson essence) :
    Accessors type essence
      [.method "json" (.named "Promise" [type]),
        .method "text" (.named "Promise" [.named "JSONString" [type]])]
  | plainText : Accessors type "text/plain" [.method "text" (.named "Promise" [.string])]
  | multipart : Accessors type "multipart/form-data"
      [.method "formData" (.named "Promise" [.name "FormData"])]
  | octetStream : Accessors type "application/octet-stream"
      [{ name := "body", type := .named "ReadableStream" [.name "Uint8Array"], isReadonly := true },
        .method "arrayBuffer" (.named "Promise" [.name "ArrayBuffer"]),
        .method "blob" (.named "Promise" [.name "Blob"])]
  | eventStream : Accessors type "text/event-stream"
      [{ name := "body", type := .named "ReadableStream" [.name "Uint8Array"], isReadonly := true }]
  | none {essence : String} (hjson : ¬ContentKind.IsJson essence)
      (hother : essence ∉ ["text/plain", "multipart/form-data", "application/octet-stream",
        "text/event-stream"]) : Accessors type essence []

/-- What a response offers for a content. The type of JSON is that of its schema. -/
def Offers (content : String × MediaType) (members : List Member) : Prop :=
  ∃ essence, ContentKind.IsEssence content.1 essence
    ∧ Accessors ((content.2.schema.bind (lowered false)).getD unknown) essence members

/-- What a response offers whose body is of the kind and, if it is JSON, of the type. -/
def bodyMembers : ContentKind → TypeExpr → List Member
  | .json, type => [.method "json" (promise type), .method "text" (promise (jsonString type))]
  | .plainText, _ => [.method "text" (promise string)]
  | .multipart, _ => [.method "formData" (promise (name "FormData"))]
  | .octetStream, _ => [streamMember, .method "arrayBuffer" (promise (name "ArrayBuffer")),
      .method "blob" (promise (name "Blob"))]
  | .eventStream, _ => [streamMember]
  | .formUrlEncoded, _ => []
  | .other, _ => []

theorem value_accessorsOf (contentType : String) (schema : Option Schema) :
    (accessorsOf contentType schema).value
      = bodyMembers (ContentKind.of contentType) ((schema.bind (lowered false)).getD unknown) := by
  unfold accessorsOf
  cases ContentKind.of contentType with
  | json =>
      dsimp only
      rw [value_bindPure]
      cases schema <;> rfl
  | _ => rfl

theorem not_isJson_form : ¬ContentKind.IsJson "application/x-www-form-urlencoded" := by
  rintro (h | h)
  · exact absurd h (by decide)
  · exact absurd (ContentKind.isJsonSuffixed_iff.mpr h) (by decide +kernel)

/-- **The accessors of a content are those of its content type.** -/
theorem offers_accessorsOf (content : String × MediaType) :
    Offers content (accessorsOf content.1 content.2.schema).value := by
  refine ⟨_, ContentKind.isEssence_essence content.1, ?_⟩
  rw [value_accessorsOf, ContentKind.of]
  generalize ContentKind.essence content.1 = essence
  by_cases happlication : essence = "application/json"
  · rw [if_pos happlication]
    exact .json (.inl happlication)
  by_cases hplain : essence = "text/plain"
  · rw [if_neg happlication, if_pos hplain, hplain]
    exact .plainText
  by_cases hmultipart : essence = "multipart/form-data"
  · rw [if_neg happlication, if_neg hplain, if_pos hmultipart, hmultipart]
    exact .multipart
  by_cases hform : essence = "application/x-www-form-urlencoded"
  · rw [if_neg happlication, if_neg hplain, if_neg hmultipart, if_pos hform, hform]
    exact .none not_isJson_form (by decide)
  by_cases hoctet : essence = "application/octet-stream"
  · rw [if_neg happlication, if_neg hplain, if_neg hmultipart, if_neg hform, if_pos hoctet, hoctet]
    exact .octetStream
  by_cases hevent : essence = "text/event-stream"
  · rw [if_neg happlication, if_neg hplain, if_neg hmultipart, if_neg hform, if_neg hoctet,
      if_pos hevent, hevent]
    exact .eventStream
  rw [if_neg happlication, if_neg hplain, if_neg hmultipart, if_neg hform, if_neg hoctet,
    if_neg hevent]
  by_cases hsuffixed : ContentKind.isJsonSuffixed essence = true
  · rw [if_pos hsuffixed]
    exact .json (.inr (ContentKind.isJsonSuffixed_iff.mp hsuffixed))
  · rw [if_neg hsuffixed]
    refine .none (not_or.mpr ⟨happlication, mt ContentKind.isJsonSuffixed_iff.mpr hsuffixed⟩) ?_
    simp [hplain, hmultipart, hoctet, hevent]

/-- The variants of a response: one for each content, or a single one without content. All of them
begin with the same `ok` and `status`. -/
structure Variants (response : Response) (ok status : Member) (variants : List TypeExpr) :
    Prop where
  none : response.content = [] → variants = [object [ok, status]]
  each : response.content ≠ [] → List.Forall₂ (fun content variant =>
    ∃ members, Offers content members ∧ variant = object (ok :: status :: members))
    response.content variants

theorem variants_branchesOf (codes : StatusCode.CodeSet) (response : Response) :
    Variants response (.property "ok" (okType codes)) (.property "status" (statusType codes))
      (branchesOf codes response) := by
  constructor
  · intro hnone
    rw [branchesOf, hnone]
    rfl
  · intro hsome
    rw [branchesOf]
    split
    · exact absurd ‹_› hsome
    · refine List.forall₂_map_right_iff.mpr (List.forall₂_same.mpr fun entry _ => ?_)
      exact ⟨_, offers_accessorsOf entry, rfl⟩

/-- A union is made of the alternatives of its parts and of nothing else. -/
theorem ofUnion_congr {first second : List TypeExpr}
    (h : first.flatMap alternatives = second.flatMap alternatives) :
    ofUnion first = ofUnion second := by
  rw [ofUnion, ofUnion, h]

end TypeExpr

/-! ### The return type of an operation -/

namespace Overload

open TypeExpr

variable {document : Document} {settings : Settings} {pattern : String} {shared : ParameterTable}
  {method : Method} {operation : Operation}
  {sets : List (StatusCode.CodeSet × Referable Response)} {types : List TypeExpr}

/-- The group holds the variants of the response that is declared under a key, and they say what
the codes of the key are. -/
def Groups (document : Document)
    (pair : (String × Referable Response) × (StatusCode.CodeSet × Referable Response))
    (group : List TypeExpr) : Prop :=
  ∃ response, document.fetch OpenApi.response.decode pair.1.2 = .ok response
    ∧ Discriminants pair.2.1.codes (okType pair.2.1) (statusType pair.2.1)
    ∧ Variants response (.property "ok" (okType pair.2.1))
      (.property "status" (statusType pair.2.1)) group

/-- What is returned lists the variants of the declared responses. -/
structure Varied (document : Document) (responses : List (String × Referable Response))
    (returns : TypeExpr) : Prop where
  undeclared : responses = [] → returns = promise (name "Response")
  declared : responses ≠ [] → ∃ sets groups,
    StatusCode.expand .standard responses = .ok sets ∧ sets.length = responses.length
      ∧ List.Forall₂ (Groups document) (responses.zip sets) groups
      ∧ returns = promise (intersection
        [without "Response" responseAccessors, ofUnion groups.flatten])
      ∧ (ofUnion groups.flatten).alternatives = groups.flatten

theorem groups_of_types {responses : List (String × Referable Response)}
    (hvalues : sets.map Prod.snd = responses.map Prod.snd)
    (h : List.Forall₂ (Types document) sets types) :
    List.Forall₂ (Groups document) (responses.zip sets) (types.map alternatives) := by
  induction h generalizing responses with
  | nil =>
      rw [List.zip_nil_right]
      exact .nil
  | cons hfirst hrest ih =>
      rename_i set _ _ _
      obtain ⟨response, hresponse, rfl⟩ := hfirst
      cases responses with
      | nil => cases hvalues
      | cons entry responses =>
          obtain ⟨hentry, hvalues⟩ := List.cons.inj hvalues
          refine .cons ⟨response, ?_, discriminants_of set.1, ?_⟩ (ih hvalues)
          · rw [← hresponse]
            exact congrArg _ hentry.symm
          · rw [alternatives_ofResponse]
            exact variants_branchesOf set.1 response

theorem varied_of_commonOf {common : Common}
    (h : commonOf document settings pattern shared method operation = .ok common) :
    Varied document (operation.responses.getD []) common.returns := by
  obtain ⟨sets, types, hsets, htypes, hreturns⟩ := exists_responses_of_commonOf h
  have hlength := StatusCode.length_of_expand hsets
  rw [hreturns]
  constructor
  · intro hnil
    rw [hnil] at hlength
    obtain rfl := List.eq_nil_of_length_eq_zero hlength.symm
    cases htypes
    rfl
  · intro hne
    have hsome : sets ≠ [] := by
      rintro rfl
      exact hne (List.eq_nil_of_length_eq_zero hlength)
    have hparts : (ofUnion types).alternatives = (types.map alternatives).flatten := by
      rw [alternatives_ofUnion_responses htypes hsome, List.flatMap_def]
    have hunion : ofUnion (types.map alternatives).flatten = ofUnion types := by
      refine ofUnion_congr ?_
      rw [← List.flatMap_def]
      refine flatMap_alternatives_self fun part hpart inner => ?_
      obtain ⟨set, -, accessors, rfl⟩ := exists_of_mem_alternatives htypes hpart
      exact nofun
    refine ⟨sets, types.map alternatives, hsets, hlength.symm,
      groups_of_types (StatusCode.values_of_expand hsets) htypes, ?_, ?_⟩
    · rw [hunion]
      exact returnType_eq htypes hsome
    · rw [hunion, hparts]

/-- **Each declared variant is listed exactly once.**  Where no response is declared any response is
returned.  Else the alternatives of what is returned are those of the keys, in the order in which
the keys are declared, and those of a key are the object types of the contents of its response, in
their order, or a single one without content. -/
theorem varied_of_signature {place : String} {group : List Signature × List Warning}
    (h : runAt place (ofOperation document settings pattern shared method operation) = .ok group) :
    group.1 ≠ [] ∧ ∀ signature ∈ group.1,
      Varied document (operation.responses.getD []) signature.returns := by
  obtain ⟨common, hcommon, hgroup⟩ := exists_commonOf h
  rw [hgroup]
  refine ⟨mt List.map_eq_nil_iff.mp (contentsOf_ne_nil common.body), fun signature hsignature => ?_⟩
  obtain ⟨content, -, rfl⟩ := List.mem_map.mp hsignature
  exact varied_of_commonOf hcommon

/-- Contents of all kinds under one key, one of them with a suffix, a parameter and capital letters,
and none under the other key. -/
theorem varied_of_signature_pets :
    let document : Document := ⟨.object [], {}⟩
    ∃ operation group, OpenApi.operation.decode (.object [("responses", .object [
        ("200", .object [("content", .object [
          ("application/json", .object [("schema", .object [("type", .string "string")])]),
          ("Application/Vnd.Pet+JSON ; charset=utf-8",
            .object [("schema", .object [("type", .string "integer")])]),
          ("text/plain", .object []),
          ("multipart/form-data", .object []),
          ("application/octet-stream", .object []),
          ("text/event-stream", .object []),
          ("application/x-www-form-urlencoded", .object []),
          ("text/pet+json", .object [])])]),
        ("404", .object [])])]) = .ok operation
      ∧ runAt "GET /pets" (ofOperation document .relative "/pets" [] .get operation) = .ok group
      ∧ (∀ signature ∈ group.1,
        Varied document (operation.responses.getD []) signature.returns)
      ∧ group.1.map (fun signature => signature.returns.render) = [
        "Promise<Omit<Response, \"ok\" | \"status\" | \"arrayBuffer\" | \"blob\" | \"formData\""
          ++ " | \"json\" | \"text\"> & ("
          ++ "\x7b ok: true; status: 200; json(): Promise<string>;"
          ++ " text(): Promise<JSONString<string>> \x7d | "
          ++ "\x7b ok: true; status: 200; json(): Promise<number>;"
          ++ " text(): Promise<JSONString<number>> \x7d | "
          ++ "\x7b ok: true; status: 200; text(): Promise<string> \x7d | "
          ++ "\x7b ok: true; status: 200; formData(): Promise<FormData> \x7d | "
          ++ "\x7b ok: true; status: 200; readonly body: ReadableStream<Uint8Array>;"
          ++ " arrayBuffer(): Promise<ArrayBuffer>; blob(): Promise<Blob> \x7d | "
          ++ "\x7b ok: true; status: 200; readonly body: ReadableStream<Uint8Array> \x7d | "
          ++ "\x7b ok: true; status: 200 \x7d | "
          ++ "\x7b ok: true; status: 200 \x7d | "
          ++ "\x7b ok: false; status: 404 \x7d)>"] := by
  intro document
  refine ⟨_, _, rfl, rfl, ?varied, by decide +kernel⟩
  exact (@varied_of_signature document .relative "/pets" [] .get _ "GET /pets" _ rfl).2

end Overload
end ApiTypings
