/-
How types are built.

Every type of a generated file is put together in a few ways: unions and intersections are
flattened, the members of an object have distinct names, templates have their texts joined,
and names are names of helper types or of references.  `Built` lists the ways.  What holds of
all generated types is shown by induction on it, once all producers are known to build.

This file has the producers of parts: schemas, templates, bodies.
-/
import Mathlib
import ApiTypings.Content
import ApiTypings.Proofs.LoweredTypes
import ApiTypings.Proofs.TypeStructure
import ApiTypings.Proofs.UsedSchemas
import ApiTypings.UrlTemplate

namespace ApiTypings

open OpenApi

namespace TypeExpr

/-- The names of the types that the generator refers to by itself. -/
def helperNames : List String := [
  "Record", "Exclude", "NonNullable", "Omit", "Promise", "Response", "RequestInit", "JSONString",
  "TypedHeadersInit", "URLSearchParamsString", "URLSearchParams", "FormData", "BodyInit",
  "ReadableStream", "Uint8Array", "Blob", "BufferSource", "ArrayBuffer"]

variable {P : String → Prop}

/-- The types that can be put together, where `P` tells the references that may be named. -/
inductive Built (P : String → Prop) : TypeExpr → Prop
  | keyword (k : Keyword) : Built P (keyword k)
  | literal (value : Json) : Built P (literal value)
  | helper {name : String} {args : List TypeExpr} (hname : name ∈ helperNames)
      (hargs : ∀ arg ∈ args, Built P arg) : Built P (named name args)
  | reference {pointer : String} (hpointer : P pointer) :
      Built P (TypeExpr.name (referenceName pointer))
  | template {parts : List TemplatePart} (hparts : TemplatePart.SeparateTexts parts)
      (htypes : ∀ inner, .type inner ∈ parts → Built P inner) : Built P (template parts)
  | array {item : TypeExpr} (hitem : Built P item) : Built P (array item)
  | object {members : List Member} (hne : members ≠ []) (hnames : (members.map Member.name).Nodup)
      (htypes : ∀ member ∈ members, Built P member.type) : Built P (object members)
  | union {types : List TypeExpr} (htypes : ∀ type ∈ types, Built P type) : Built P (ofUnion types)
  | intersection {types : List TypeExpr} (htypes : ∀ type ∈ types, Built P type) :
      Built P (ofIntersection types)

namespace Built

theorem name {name : String} (hname : name ∈ helperNames) : Built P (TypeExpr.name name) :=
  .helper hname nofun

theorem text (value : String) : Built P (TypeExpr.text value) := .literal _

theorem applied {name : String} {arg : TypeExpr} (hname : name ∈ helperNames) (harg : Built P arg) :
    Built P (named name [arg]) :=
  .helper hname fun _ h => List.mem_singleton.mp h ▸ harg

theorem promise {type : TypeExpr} (h : Built P type) : Built P (promise type) :=
  .applied (by decide) h

theorem jsonString {type : TypeExpr} (h : Built P type) : Built P (jsonString type) :=
  .applied (by decide) h

theorem getD {type : Option TypeExpr} {default : TypeExpr} (h : ∀ inner ∈ type, Built P inner)
    (hdefault : Built P default) : Built P (type.getD default) := by
  cases type with
  | none => exact hdefault
  | some inner => exact h inner rfl

end Built

/-! ### What holds at every depth -/

/-- Each way to put a type together makes `Q` hold of it, whatever stands inside.  Only for a
combination it counts that `Q` holds of the types that are combined. -/
structure EachBuilt (P : String → Prop) (Q : TypeExpr → Prop) : Prop where
  keyword : ∀ k, Q (.keyword k)
  literal : ∀ value, Q (.literal value)
  helper : ∀ name ∈ helperNames, ∀ args, Q (.named name args)
  reference : ∀ pointer, P pointer → Q (.name (referenceName pointer))
  template : ∀ parts, TemplatePart.SeparateTexts parts → Q (.template parts)
  array : ∀ item, Q (.array item)
  object : ∀ members, members ≠ [] → (members.map Member.name).Nodup → Q (.object members)
  combined : ∀ (combination : Combination) (types : List TypeExpr), (∀ type ∈ types, Q type) →
    2 ≤ (types.flatMap combination.operands).length →
    Q (combination.holding (types.flatMap combination.operands))

variable {Q : TypeExpr → Prop}

theorem EachBuilt.everywhere_of (h : EachBuilt P Q) (combination : Combination)
    {types : List TypeExpr} (htypes : ∀ type ∈ types, Everywhere Q type) :
    Everywhere Q (combination.of types) := by
  have hneutral : Q combination.neutral := by
    cases combination <;> exact h.keyword _
  exact combination.everywhere_of htypes hneutral
    (h.combined combination types fun type htype => (htypes type htype).self)

/-- **What each way of building gives holds of a built type at every depth.** -/
theorem Built.everywhere {type : TypeExpr} (h : Built P type) (hQ : EachBuilt P Q) :
    Everywhere Q type := by
  induction h with
  | keyword k => exact everywhere_iff.mpr ⟨hQ.keyword k, nofun⟩
  | literal value => exact everywhere_iff.mpr ⟨hQ.literal value, nofun⟩
  | helper hname _ ih => exact everywhere_iff.mpr ⟨hQ.helper _ hname _, ih⟩
  | reference hpointer => exact everywhere_iff.mpr ⟨hQ.reference _ hpointer, nofun⟩
  | template hparts _ ih =>
      exact everywhere_iff.mpr ⟨hQ.template _ hparts,
        fun inner hinner => ih inner (mem_children_template.mp hinner)⟩
  | array _ ih => exact everywhere_iff.mpr ⟨hQ.array _, List.forall_mem_singleton.mpr ih⟩
  | object hne hnames _ ih =>
      exact everywhere_iff.mpr ⟨hQ.object _ hne hnames, List.forall_mem_map.mpr ih⟩
  | union _ ih => exact hQ.everywhere_of .union ih
  | intersection _ ih => exact hQ.everywhere_of .intersection ih

/-! ### Schemas -/

theorem keeps_built {coerce : Bool} {schema : Schema} (h : Schema.Proper P schema) :
    Keeps coerce (Built P) schema where
  keyword k _ := .keyword k
  stringified _ k := by
    refine .template (List.isChain_singleton _) fun inner hinner => ?_
    obtain rfl : inner = .keyword k := by simpa using hinner
    exact .keyword k
  literal value := .literal value
  applied name hname args hargs := by
    refine .helper ?_ hargs
    fin_cases hname <;> decide
  array _ hitem := .array hitem
  ofUnion _ htypes := .union htypes
  ofIntersection _ htypes := .intersection htypes
  reference pointer hpointer := .reference (h.references pointer hpointer)
  object node properties hnode hproperties hne hmembers := by
    refine .object (by simpa using hne) ?_ hmembers
    rw [List.map_map]
    exact h.distinct _ hnode properties hproperties

theorem built_of_lowered {coerce : Bool} {schema : Schema} (h : Schema.Proper P schema) :
    ∀ type ∈ lowered coerce schema, Built P type :=
  lowered_induction (keeps_built h)

theorem always_ofItem {coerce : Bool} {schema : Option Schema}
    (h : ∀ inner ∈ schema, Schema.Proper P inner) :
    Inspect.Always (fun type => ∀ inner ∈ type, Built P inner) (ofItem coerce schema) := by
  cases schema with
  | none => exact Inspect.always_pure nofun
  | some schema => exact (appends_ofSchema schema).always (built_of_lowered (h schema rfl))

end TypeExpr

/-! ### Templates -/

namespace TemplatePart

theorem separateTexts_growText {parts : List TemplatePart} (h : SeparateTexts parts)
    (front : String) : SeparateTexts (growText front parts) := by
  match parts, h with
  | [], _ => exact List.isChain_singleton _
  | .text next :: [], _ => exact List.isChain_singleton _
  | .text next :: .type inner :: rest, h =>
      exact List.isChain_cons_cons.mpr ⟨by simp [isText], (List.isChain_cons_cons.mp h).2⟩
  | .text next :: .text other :: rest, h =>
      exact absurd (List.isChain_cons_cons.mp h).1 (by simp [isText])
  | .type inner :: rest, h => exact List.isChain_cons_cons.mpr ⟨by simp [isText], h⟩

theorem separateTexts_prependText {parts : List TemplatePart} (h : SeparateTexts parts)
    (front : String) : SeparateTexts (prependText front parts) := by
  unfold prependText
  split
  · exact h
  · exact separateTexts_growText h front

/-- A merged template has no neighbouring texts. -/
theorem separateTexts_merge (parts : List TemplatePart) : SeparateTexts (merge parts) := by
  induction parts with
  | nil => exact List.isChain_nil
  | cons part parts ih =>
      cases part with
      | text front => exact separateTexts_prependText ih front
      | type inner =>
          rw [merge]
          refine List.isChain_cons.mpr ⟨fun _ _ => by simp [isText], ih⟩

/-- Nor has a path with a form in front of it. -/
theorem separateTexts_prefixed (form path : List TemplatePart) :
    SeparateTexts (prefixed form path) := by
  unfold prefixed
  split
  · exact separateTexts_growText (separateTexts_merge _) _
  · exact separateTexts_merge _

theorem type_mem_growText {front : String} {parts : List TemplatePart} {inner : TypeExpr}
    (h : .type inner ∈ growText front parts) : .type inner ∈ parts := by
  unfold growText at h
  split at h <;> simpa using h

theorem type_mem_prependText {front : String} {parts : List TemplatePart} {inner : TypeExpr}
    (h : .type inner ∈ prependText front parts) : .type inner ∈ parts := by
  unfold prependText at h
  split at h
  · exact h
  · exact type_mem_growText h

theorem type_mem_merge {parts : List TemplatePart} {inner : TypeExpr}
    (h : .type inner ∈ merge parts) : .type inner ∈ parts := by
  induction parts with
  | nil => cases h
  | cons part parts ih =>
      cases part with
      | text front => exact List.mem_cons_of_mem _ (ih (type_mem_prependText h))
      | type first =>
          rcases List.mem_cons.mp h with hfirst | h
          · rw [hfirst]
            exact List.mem_cons_self
          · exact List.mem_cons_of_mem _ (ih h)

theorem type_mem_prefixed {form path : List TemplatePart} {inner : TypeExpr}
    (h : .type inner ∈ prefixed form path) : .type inner ∈ form ++ path := by
  unfold prefixed at h
  split at h
  · exact List.mem_cons_of_mem _ (type_mem_merge (type_mem_growText h))
  · exact type_mem_merge h

end TemplatePart

/-! ### Bodies -/

namespace TypeExpr

open Inspect

variable {P : String → Prop}

theorem always_ofRequestBody {contentType : String} {schema : Option Schema} {settings : Settings}
    (h : ∀ inner ∈ schema, Schema.Proper P inner) :
    Always (Built P) (ofRequestBody contentType schema settings) := by
  unfold ofRequestBody
  split
  · exact (always_ofItem h).bind fun type htype =>
      always_pure (.jsonString (.getD htype (.keyword _)))
  · exact always_pure (.keyword _)
  · exact always_pure (.name (by decide))
  · refine (always_ofItem h).bind fun type htype => ?_
    cases type with
    | none => exact always_pure (.name (by decide))
    | some fields =>
        refine always_pure (.union (List.forall_mem_cons.mpr ⟨?_, ?_⟩))
        · exact .applied (by decide) (htype fields rfl)
        · split
          · exact nofun
          · intro type hmem
            rw [List.mem_singleton.mp hmem]
            exact .applied (by decide) (htype fields rfl)
  · refine always_pure (.union ?_)
    simp only [List.forall_mem_cons]
    exact ⟨.name (by decide), .name (by decide), .name (by decide), nofun⟩
  · exact always_pure (.name (by decide))
  · exact always_pure (.name (by decide))

theorem built_responseHead (codes : StatusCode.CodeSet) :
    ∀ member ∈ responseHead codes, Built P member.type := by
  simp only [responseHead, List.forall_mem_cons]
  refine ⟨?_, .union ?_, nofun⟩
  · simp only [Member.property]
    split
    · exact .literal _
    · exact .keyword _
  · simp only [List.forall_mem_map]
    exact fun _ _ => .literal _

/-- The accessors of a response: distinct, and none of them declared for every response. -/
theorem always_accessorsOf {contentType : String} {schema : Option Schema}
    (h : ∀ inner ∈ schema, Schema.Proper P inner) :
    Always (fun members => (("ok" :: "status" :: members.map Member.name)).Nodup
      ∧ ∀ member ∈ members, Built P member.type) (accessorsOf contentType schema) := by
  have hstream : Built P streamMember.type := .applied (by decide) (.name (by decide))
  unfold accessorsOf
  split
  · have hnames : ["ok", "status", "json", "text"].Nodup := by decide
    refine (always_ofItem h).bind fun type htype => always_pure ⟨hnames, ?_⟩
    have hbuilt : Built P (type.getD unknown) := .getD htype (.keyword _)
    simp only [List.forall_mem_cons]
    exact ⟨.promise hbuilt, .promise (.jsonString hbuilt), nofun⟩
  · refine always_pure ⟨by decide, ?_⟩
    simp only [List.forall_mem_cons]
    exact ⟨.promise (.keyword _), nofun⟩
  · refine always_pure ⟨by decide, ?_⟩
    simp only [List.forall_mem_cons]
    exact ⟨.promise (.name (by decide)), nofun⟩
  · refine always_pure ⟨by decide, ?_⟩
    simp only [List.forall_mem_cons]
    exact ⟨hstream, nofun⟩
  · refine always_pure ⟨by decide, ?_⟩
    simp only [List.forall_mem_cons]
    exact ⟨hstream, .promise (.name (by decide)), .promise (.name (by decide)), nofun⟩
  · exact always_pure ⟨by decide, nofun⟩
  · exact always_pure ⟨by decide, nofun⟩

theorem always_responseVariants {codes : StatusCode.CodeSet} {content : List (String × MediaType)}
    (h : ∀ entry ∈ content, entry.2.Proper P) :
    Always (fun types => ∀ type ∈ types, Built P type) (responseVariants codes content) := by
  refine (traverses_responseVariants codes).always fun entry hentry => ?_
  refine (always_accessorsOf (h entry hentry)).imp fun members hmembers => ?_
  refine .object (by simp [responseHead]) ?_ ?_
  · simpa [responseHead, Member.property] using hmembers.1
  · exact List.forall_mem_append.mpr ⟨built_responseHead codes, hmembers.2⟩

theorem always_ofResponse {codes : StatusCode.CodeSet} {response : Response}
    (h : response.Proper P) : Always (Built P) (ofResponse codes response) := by
  unfold ofResponse
  split
  · exact always_pure (.object (by simp [responseHead]) (by simp [responseHead, Member.property])
      (built_responseHead codes))
  · exact (always_responseVariants h).bind fun types htypes => always_pure (.union htypes)

end TypeExpr
end ApiTypings
