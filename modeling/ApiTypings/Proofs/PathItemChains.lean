/-
What is used of a chain of path items.

A path item may refer to another one, which may refer to a third, and each of them may have
operations of its own beside its reference.  The references are followed to the end first, and
only then the item at the end is laid over the one that the chain began with.  The items in
between are passed through and nothing of them is kept.

So the result is the overlay of the whole chain as long as the last item has all that the ones
in between have.  A method that only items in between define has no overloads.
-/
import Mathlib
import ApiTypings.Proofs.PathOverloads

namespace ApiTypings

open OpenApi

/-! ### Chains, link by link -/

namespace Json

variable {root value : Json} {start next : String}

theorem referenceAfter_succ (h : referenceBehind? root start = some next) (n : Nat) :
    referenceAfter root start (n + 1) = referenceAfter root next n := by
  induction n with
  | zero => exact h
  | succ n ih => rw [referenceAfter, ih, referenceAfter]

theorem IsTrail.cons {trail : List String} (h : IsTrail root next trail)
    (hnext : referenceBehind? root start = some next) :
    IsTrail root start (start :: trail) := by
  intro i hi
  cases i with
  | zero => rfl
  | succ i =>
      rw [referenceAfter_succ hnext, List.getElem?_cons_succ]
      exact h i (by simpa using hi)

theorem resolveChain_of_end (hvalue : resolve root start = .ok value)
    (hnone : referenceIn? value = none) : resolveChain root start = .ok value :=
  resolveChain_eq_ok_iff.mpr ⟨[], start, isTrail_singleton, List.nodup_singleton _, hvalue, hnone⟩

/-- A chain that ends can be entered one reference earlier. -/
theorem resolveChain_of_link {before : Json} (hbefore : resolve root start = .ok before)
    (hnext : referenceIn? before = some next) (h : resolveChain root next = .ok value) :
    resolveChain root start = .ok value := by
  obtain ⟨trail, last, htrail, -, hvalue, hnone⟩ := resolveChain_eq_ok_iff.mp h
  have hlong : IsTrail root start (start :: trail ++ [last]) :=
    htrail.cons (referenceBehind?_eq_some_iff.mpr ⟨before, hbefore, hnext⟩)
  exact resolveChain_eq_ok_iff.mpr ⟨start :: trail, last, hlong,
    hlong.nodup_of_stop (referenceBehind?_of_content hvalue hnone), hvalue, hnone⟩

end Json

namespace OpenApi

/-- The path items that a reference leads through: each but the last has a reference to the next
one, beside whatever else it has. -/
inductive PathItem.Chain (tree : Json) : String → List PathItem → Prop
  | last {pointer : String} {value : Json} {item : PathItem}
      (hvalue : Json.resolve tree pointer = .ok value) (hnone : Json.referenceIn? value = none)
      (hitem : OpenApi.pathItem.decode value = .ok item) : Chain tree pointer [item]
  | link {pointer next : String} {value : Json} {item : PathItem} {items : List PathItem}
      (hvalue : Json.resolve tree pointer = .ok value)
      (hnext : Json.referenceIn? value = some next)
      (hitem : OpenApi.pathItem.decode value = .ok item) (hitems : Chain tree next items) :
      Chain tree pointer (item :: items)

namespace PathItem

variable {document : Document} {pointer : String} {items : List PathItem}

/-- Fetching through a chain gives its last item. -/
theorem Chain.target (h : Chain document.tree pointer items) :
    ∃ between final, items = between ++ [final]
      ∧ document.target OpenApi.pathItem.decode pointer = .ok final := by
  have hend : ∃ between final value, items = between ++ [final]
      ∧ Json.resolveChain document.tree pointer = .ok value
      ∧ OpenApi.pathItem.decode value = .ok final := by
    induction h with
    | last hvalue hnone hitem =>
        exact ⟨[], _, _, rfl, Json.resolveChain_of_end hvalue hnone, hitem⟩
    | link hvalue hnext _ _ ih =>
        obtain ⟨between, final, value, rfl, hend, hfinal⟩ := ih
        exact ⟨_ :: between, final, value, rfl, Json.resolveChain_of_link hvalue hnext hend, hfinal⟩
  obtain ⟨between, final, value, hitems, hend, hfinal⟩ := hend
  refine ⟨between, final, hitems, ?_⟩
  rw [Document.target, hend]
  exact Decoder.decodeFrom_eq_ok.mpr hfinal

/-! ### Overlays -/

theorem slots_overlay_eq_absent {item other : PathItem} {method : Method} :
    (item.overlay other).slots method = .absent
      ↔ item.slots method = .absent ∧ other.slots method = .absent := by
  rw [overlay]
  dsimp only
  cases other.slots method <;> simp

/-- A method of an overlay of many items is defined if one of them defines it. -/
theorem slots_foldl_eq_absent (item : PathItem) (items : List PathItem) (method : Method) :
    (items.foldl overlay item).slots method = .absent
      ↔ item.slots method = .absent ∧ ∀ other ∈ items, other.slots method = .absent := by
  induction items generalizing item with
  | nil => simp
  | cons other items ih =>
      rw [List.foldl_cons, ih, slots_overlay_eq_absent, List.forall_mem_cons, and_assoc]

/-- All that an item has is had by the other one as well, though it need not be the same. -/
structure CoveredBy (item other : PathItem) : Prop where
  slots : ∀ method, other.slots method = .absent → item.slots method = .absent
  parameters : other.parameters = none → item.parameters = none

theorem overlay_overlay_of_covered {item other final : PathItem} (h : other.CoveredBy final) :
    (item.overlay other).overlay final = item.overlay final := by
  have hparameters : final.parameters.or (other.parameters.or item.parameters)
      = final.parameters.or item.parameters := by
    cases hfinal : final.parameters with
    | none => rw [h.parameters hfinal, Option.none_or]
    | some parameters => rfl
  have hslots : ∀ method, ((item.overlay other).overlay final).slots method
      = (item.overlay final).slots method := by
    intro method
    simp only [overlay]
    cases hfinal : final.slots method with
    | absent => rw [h.slots method hfinal]
    | null => rfl
    | operation operation => rfl
  exact congrArg₂ (PathItem.mk none) hparameters (funext hslots)

theorem foldl_overlay_of_covered {item final : PathItem} {between : List PathItem}
    (h : ∀ other ∈ between, other.CoveredBy final) :
    (between.foldl overlay item).overlay final = item.overlay final := by
  induction between generalizing item with
  | nil => rfl
  | cons other between ih =>
      obtain ⟨hother, hbetween⟩ := List.forall_mem_cons.mp h
      rw [List.foldl_cons, ih hbetween, overlay_overlay_of_covered hother]

end PathItem
end OpenApi

/-! ### The item that is used -/

namespace Overload

variable {document : Document} {item : PathItem} {start : String} {items : List PathItem}

/-- The last item of the chain is laid over the first one. -/
theorem effectiveItem_eq (hitem : item.reference = some start)
    (hchain : PathItem.Chain document.tree start items) :
    ∃ between final, items = between ++ [final]
      ∧ effectiveItem document item = .ok (item.overlay final) := by
  obtain ⟨between, final, hitems, htarget⟩ := hchain.target
  refine ⟨between, final, hitems, ?_⟩
  rw [effectiveItem, hitem]
  dsimp only
  rw [htarget]

/-- **Of a chain of path items the two ends are used.**  The result is the first item with the last
one laid over it.  A method of the chain is lost exactly if only items in between define it.  The
result is the overlay of the whole chain if the last item has all that those in between have.  And
every method that the result defines gets overloads, one group for each. -/
theorem effectiveItem_of_chain (hitem : item.reference = some start)
    (hchain : PathItem.Chain document.tree start items) :
    ∃ between final, items = between ++ [final]
      ∧ effectiveItem document item = .ok (item.overlay final)
      ∧ (∀ method, (items.foldl PathItem.overlay item).slots method ≠ .absent
            ∧ (item.overlay final).slots method = .absent
          ↔ (∃ other ∈ between, other.slots method ≠ .absent)
            ∧ item.slots method = .absent ∧ final.slots method = .absent)
      ∧ ((∀ other ∈ between, other.CoveredBy final) →
          item.overlay final = items.foldl PathItem.overlay item)
      ∧ ∀ settings pattern overloads, ofPathItem document settings pattern item = .ok overloads →
          ∃ shared groups, overloads = join groups ∧ (∀ group ∈ groups, group.1 ≠ [])
            ∧ List.Forall₂ (fun entry =>
                OfOperation document settings pattern shared entry.1 entry.2)
              (item.overlay final).operations groups := by
  obtain ⟨between, final, rfl, hused⟩ := effectiveItem_eq hitem hchain
  refine ⟨between, final, rfl, hused, fun method => ?lost, fun hcovered => ?covered,
    fun settings pattern overloads hoverloads => ?overloads⟩
  case lost =>
    rw [PathItem.slots_overlay_eq_absent, ne_eq, PathItem.slots_foldl_eq_absent,
      List.forall_mem_append, List.forall_mem_singleton]
    have hbetween : (∃ other ∈ between, other.slots method ≠ .absent)
        ↔ ¬∀ other ∈ between, other.slots method = .absent := by simp
    rw [hbetween]
    tauto
  case covered =>
    rw [List.foldl_append, List.foldl_cons, List.foldl_nil,
      PathItem.foldl_overlay_of_covered hcovered]
  case overloads =>
    have hpath : OfPath document settings (pattern, item) overloads := ofPath_iff.mpr hoverloads
    obtain ⟨result, shared, groups, hresult, -, -, hgroups, rfl⟩ := hpath
    obtain rfl := Except.ok.inj (hused.symm.trans (effectiveItem_eq_ok.mpr hresult))
    refine ⟨shared, groups, rfl, fun group hgroup => ?_, hgroups⟩
    obtain ⟨entry, -, hentry⟩ := exists_mem_left hgroups hgroup
    exact hentry.ne_nil

/-- The last of three items has what the one in between has, so nothing of the chain is lost. -/
theorem effectiveItem_of_chain_covered :
    let tree : Json := .object [
      ("a", .object [("$ref", .string "#/b"), ("put", .object [("deprecated", .boolean true)])]),
      ("b", .object [("put", .object []), ("post", .object [])])]
    let document : Document := ⟨tree, {}⟩
    ∃ item first last, OpenApi.pathItem.decode
        (.object [("$ref", .string "#/a"), ("get", .object [])]) = .ok item
      ∧ (item.reference = some "#/a" ∧ PathItem.Chain document.tree "#/a" [first, last])
      ∧ first.CoveredBy last
      ∧ effectiveItem document item = .ok ([first, last].foldl PathItem.overlay item)
      ∧ ∀ method ∈ [Method.get, .put, .post], (item.overlay last).slots method ≠ .absent := by
  intro tree document
  obtain ⟨item, hitem⟩ : ∃ item, OpenApi.pathItem.decode
    (.object [("$ref", .string "#/a"), ("get", .object [])]) = .ok item := ⟨_, rfl⟩
  obtain ⟨first, hfirst⟩ : ∃ first, OpenApi.pathItem.decode (.object [("$ref", .string "#/b"),
    ("put", .object [("deprecated", .boolean true)])]) = .ok first := ⟨_, rfl⟩
  obtain ⟨last, hlast⟩ : ∃ last, OpenApi.pathItem.decode
    (.object [("put", .object []), ("post", .object [])]) = .ok last := ⟨_, rfl⟩
  have hchain : PathItem.Chain document.tree "#/a" [first, last] :=
    .link rfl rfl hfirst (.last rfl rfl hlast)
  have hreference : item.reference = some "#/a" := by
    cases hitem
    rfl
  have hcovered : first.CoveredBy last := by
    cases hfirst
    cases hlast
    refine ⟨fun method hmethod => ?_, fun _ => rfl⟩
    cases method <;> first | rfl | cases hmethod
  have hdefined : ∀ method ∈ [Method.get, .put, .post],
      (item.overlay last).slots method ≠ .absent := by
    cases hitem
    cases hlast
    simp only [List.forall_mem_cons]
    exact ⟨nofun, nofun, nofun, nofun⟩
  refine ⟨item, first, last, hitem, ⟨hreference, hchain⟩, hcovered, ?_, hdefined⟩
  obtain ⟨between, final, hsplit, hused, -, hoverlay, -⟩ := effectiveItem_of_chain hreference hchain
  obtain ⟨rfl, hfinal⟩ : [first] = between ∧ [last] = [final] := List.append_inj' hsplit rfl
  obtain rfl := List.singleton_inj.mp hfinal
  rw [hused, hoverlay (List.forall_mem_singleton.mpr hcovered)]

/-- Three items have an operation each, and the one in between loses its operation: there are
overloads for the two at the ends only. -/
theorem effectiveItem_loses_between :
    let tree : Json := .object [("x-items", .object [
      ("first", .object [("$ref", .string "#/x-items/second"), ("post", .object [])]),
      ("second", .object [("put", .object [])])])]
    let document : Document := ⟨tree, {}⟩
    ∃ item items, OpenApi.pathItem.decode
        (.object [("$ref", .string "#/x-items/first"), ("get", .object [])]) = .ok item
      ∧ item.reference = some "#/x-items/first"
      ∧ PathItem.Chain document.tree "#/x-items/first" items
      ∧ (items.foldl PathItem.overlay item).operations.map Prod.fst = [.get, .put, .post]
      ∧ (effectiveItem document item).toOption.map (·.operations.map Prod.fst)
        = some [.get, .put]
      ∧ (ofPathItem document .relative "/pets" item).toOption.map (·.1.length) = some 2 := by
  intro tree document
  exact ⟨_, _, rfl, rfl, .link rfl rfl rfl (.last rfl rfl rfl), by decide +kernel,
    by decide +kernel, by decide +kernel⟩

end Overload
end ApiTypings
