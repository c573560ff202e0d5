/-
What is built item by item.

Members, properties, query fields, parts of a path, headers, contents and bodies are lists that are
gone through once: each item is inspected in turn, and one piece is made of it and of what its
inspection gives.  `Traverses` says so of a function, and the laws of such a traversal are shown
here once.  It only appends if its inspections do, its value has the piece of each item in their
order, it adds what the inspections add, and what holds of every piece holds of all of them.
-/
import Mathlib
import ApiTypings.Overload
import ApiTypings.Proofs.Inspection

namespace ApiTypings

open OpenApi

namespace Inspect

/-- The traversal inspects the items of a list in turn, and makes one piece of each item and what
its inspection gives. -/
structure Traverses {α β γ : Type} (traverse : List α → Inspect (List γ)) (inspect : α → Inspect β)
    (make : α → β → γ) : Prop where
  nil : traverse [] = pure []
  cons : ∀ item items, traverse (item :: items) = (do
    let result ← inspect item
    let pieces ← traverse items
    return make item result :: pieces)

namespace Traverses

variable {α β γ δ : Type} {traverse : List α → Inspect (List γ)} {inspect : α → Inspect β}
  {make : α → β → γ} {items : List α} (h : Traverses traverse inspect make)
include h

section

variable (hitems : ∀ item ∈ items, Appends (inspect item))
include hitems

theorem appends : Appends (traverse items) := by
  induction items with
  | nil =>
      rw [h.nil]
      exact appends_pure _
  | cons item items ih =>
      obtain ⟨hitem, hitems⟩ := List.forall_mem_cons.mp hitems
      rw [h.cons]
      exact hitem.bind ((ih hitems).bindPure _)

theorem value_eq :
    (traverse items).value = items.map fun item => make item (inspect item).value := by
  induction items with
  | nil =>
      rw [h.nil]
      rfl
  | cons item items ih =>
      obtain ⟨hitem, hitems⟩ := List.forall_mem_cons.mp hitems
      rw [h.cons, hitem.value_bind ((h.appends hitems).bindPure _), value_bindPure, ih hitems,
        List.map_cons]

theorem counts_eq : (traverse items).counts = items.flatMap fun item => (inspect item).counts := by
  induction items with
  | nil =>
      rw [h.nil]
      rfl
  | cons item items ih =>
      obtain ⟨hitem, hitems⟩ := List.forall_mem_cons.mp hitems
      rw [h.cons, hitem.counts_bind ((h.appends hitems).bindPure _), counts_bindPure, ih hitems,
        List.flatMap_cons]

end

theorem always {P : γ → Prop}
    (hitems : ∀ item ∈ items, Always (fun result => P (make item result)) (inspect item)) :
    Always (fun pieces => ∀ piece ∈ pieces, P piece) (traverse items) := by
  induction items with
  | nil =>
      rw [h.nil]
      exact always_pure nofun
  | cons item items ih =>
      obtain ⟨hitem, hitems⟩ := List.forall_mem_cons.mp hitems
      rw [h.cons]
      exact hitem.bind fun result hresult => (ih hitems).bind fun pieces hpieces =>
        always_pure (List.forall_mem_cons.mpr ⟨hresult, hpieces⟩)

/-- What a piece takes over from its item does not depend on what the inspection gives. -/
theorem always_map_eq {taken : γ → δ} {given : α → δ}
    (hmake : ∀ item result, taken (make item result) = given item) :
    Always (fun pieces => pieces.map taken = items.map given) (traverse items) := by
  induction items with
  | nil =>
      rw [h.nil]
      exact always_pure rfl
  | cons item items ih =>
      have hitem : Always (fun _ => True) (inspect item) := fun _ => trivial
      rw [h.cons]
      refine hitem.bind fun result _ => ih.bind fun pieces hpieces => always_pure ?_
      rw [List.map_cons, List.map_cons, hmake, hpieces]

end Traverses

end Inspect

open Inspect

/-! ### The traversals of schemas -/

namespace TypeExpr

variable {coerce : Bool}

theorem traverses_ofMembers :
    Traverses (ofMembers coerce) (ofSchema coerce) fun _ type => type :=
  ⟨rfl, fun _ _ => rfl⟩

theorem traverses_ofProperties (required : List String) :
    Traverses (ofProperties coerce required) (fun property => ofSchema coerce property.2)
      fun property type =>
        { name := property.1
          type := type.getD unknown
          isOptional := !required.contains property.1 } :=
  ⟨rfl, fun _ _ => rfl⟩

theorem traverses_responseVariants (codes : StatusCode.CodeSet) :
    Traverses (responseVariants codes) (fun entry => accessorsOf entry.1 entry.2.schema)
      fun _ accessors => object (responseHead codes ++ accessors) :=
  ⟨rfl, fun _ _ => rfl⟩

end TypeExpr

/-! ### The traversals of URLs -/

/-- The part for a piece of a pattern, where `typeOf?` gives the types of the names that stand for
one. -/
def TemplatePart.ofPiece (typeOf? : String → Option (Inspect TypeExpr)) :
    PatternPiece → Inspect TemplatePart
  | .text chars => pure (.text (String.ofList chars))
  | .braced name =>
    match typeOf? (String.ofList name) with
    | some inner => .type <$> inner
    | none => pure (.text (String.ofList ('\x7b' :: name ++ ['\x7d'])))

theorem TemplatePart.traverses_ofPieces (typeOf? : String → Option (Inspect TypeExpr)) :
    Traverses (ofPieces typeOf?) (ofPiece typeOf?) fun _ part => part where
  nil := rfl
  cons piece pieces := by
    cases piece with
    | text chars => rfl
    | braced name =>
        rw [ofPieces, ofPiece]
        cases typeOf? (String.ofList name) <;> rfl

theorem UrlTemplate.traverses_queryFields :
    Traverses queryFields (valueType true) fun parameter type =>
      { name := parameter.name
        type := .ofUnion
          (type :: if parameter.allowEmptyValue then [.literal (.boolean true)] else [])
        isOptional := !parameter.required } :=
  ⟨rfl, fun _ _ => rfl⟩

/-! ### The traversals of an operation -/

namespace Overload

theorem traverses_headerMembers :
    Traverses headerMembers (UrlTemplate.valueType false) fun header type =>
      { name := header.name, type, isOptional := !header.required } :=
  ⟨rfl, fun _ _ => rfl⟩

theorem traverses_requestBodies (settings : Settings) :
    Traverses (requestBodies settings)
      (fun entry => TypeExpr.ofRequestBody entry.1 entry.2.schema settings)
      fun entry type => (entry.1, type) :=
  ⟨rfl, fun _ _ => rfl⟩

theorem traverses_ofBodies (common : Common) :
    Traverses (ofBodies common) (ofBody common) fun _ signature => signature :=
  ⟨rfl, fun _ _ => rfl⟩

end Overload
end ApiTypings
