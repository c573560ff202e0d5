/-
Which nodes of a schema its lowering comes to.

`visits` lists them with the ways to them, in the order in which they come.  A node is not gone into
where no type can come of it: only one of the keywords for a base counts, and what stands around a
base counts only if there is a base.

An outer node stands in front of those inside it, and no way is gone twice.  But a list of type
names makes objects and arrays of a node for each of its names, so the schemas inside are visited
for each of them.  Ways that differ in this only end at one place in the schema:
`SchemaStep.place` leaves it out, and the places are different where no name for objects or arrays
is listed twice.
-/
import Mathlib
import ApiTypings.Proofs.CoercedLeaves

namespace ApiTypings

open OpenApi

namespace OpenApi

/-! ### The ways into a schema -/

/-- One step from a node to a schema directly inside it. A node is made an object, or an array, for
each of its kinds, and `kind` is the place of the kind in their list. -/
inductive SchemaStep
  | allOf (index : Nat)
  | oneOf (index : Nat)
  | anyOf (index : Nat)
  | property (kind index : Nat)
  | items (kind : Nat)
  | additional
  | not
  deriving DecidableEq

/-- The step without the kind that it is made for: the place where the schema stands. -/
def SchemaStep.place : SchemaStep → SchemaStep
  | .property _ index => .property 0 index
  | .items _ => .items 0
  | step => step

/-- Schemas with the steps that lead to them. -/
def numbered (step : Nat → SchemaStep) (schemas : List Schema) : List (SchemaStep × Schema) :=
  schemas.zipIdx.map fun entry => (step entry.2, entry.1)

theorem map_snd_numbered (step : Nat → SchemaStep) (schemas : List Schema) :
    (numbered step schemas).map Prod.snd = schemas := by
  rw [numbered, List.map_map]
  exact List.zipIdx_map_fst 0 schemas

theorem nodup_numbered {step : Nat → SchemaStep} (hstep : step.Injective) (schemas : List Schema) :
    ((numbered step schemas).map Prod.fst).Nodup := by
  have hsteps : (numbered step schemas).map Prod.fst
      = (schemas.zipIdx.map Prod.snd).map step := by
    rw [numbered, List.map_map, List.map_map]
    rfl
  rw [hsteps, List.zipIdx_map_snd]
  exact List.Nodup.map hstep List.nodup_range'

namespace SchemaObject

variable {node : SchemaObject}

/-- The schemas that the node is made of as one of its kinds. -/
def kindVisits (node : SchemaObject) (kind : Nat) (name : String) : List (SchemaStep × Schema) :=
  if name = "object" then numbered (.property kind) ((node.properties.getD []).map Prod.snd)
  else if name = "array" then node.items.toList.map fun item => (.items kind, item)
  else []

/-- The schemas that the base of the node is made of. -/
def baseVisits (node : SchemaObject) : List (SchemaStep × Schema) :=
  match node.allOf, node.oneOf, node.anyOf, node.enum with
  | some members, _, _, _ => numbered .allOf members
  | none, some members, _, _ => numbered .oneOf members
  | none, none, some members, _ => numbered .anyOf members
  | none, none, none, some _ => []
  | none, none, none, none => node.kinds.zipIdx.flatMap fun entry => node.kindVisits entry.2 entry.1

/-- The schemas around the base. -/
def outerVisits (node : SchemaObject) : List (SchemaStep × Schema) :=
  ((node.additionalProperties.bind AdditionalProperties.schema?).toList.map
      fun values => (SchemaStep.additional, values))
    ++ node.not.toList.map fun excluded => (SchemaStep.not, excluded)

/-- The schemas inside a node that its lowering comes to, in order. -/
def innerVisits (node : SchemaObject) : List (SchemaStep × Schema) :=
  node.baseVisits ++ if (TypeExpr.base? false node).isSome then node.outerVisits else []

theorem mem_snd_of_mem_numbered {step : Nat → SchemaStep} {schemas : List Schema}
    {visit : SchemaStep × Schema} (h : visit ∈ numbered step schemas) : visit.2 ∈ schemas := by
  rw [← map_snd_numbered step schemas]
  exact List.mem_map_of_mem h

theorem mem_typeSources_of_mem_kindVisits {kind : Nat} {name : String}
    {visit : SchemaStep × Schema} (hname : name ∈ node.kinds)
    (h : visit ∈ node.kindVisits kind name) : visit.2 ∈ node.typeSources := by
  rw [typeSources, List.mem_append]
  unfold kindVisits at h
  split at h
  case isTrue hobject =>
      rw [if_pos (hobject ▸ hname)]
      exact .inl (mem_snd_of_mem_numbered h)
  case isFalse =>
      split at h
      case isTrue harray =>
          obtain ⟨item, hitem, rfl⟩ := List.mem_map.mp h
          rw [if_pos (harray ▸ hname : "array" ∈ node.kinds)]
          exact .inr hitem
      case isFalse => cases h

theorem mem_baseSources_of_mem_baseVisits {visit : SchemaStep × Schema} :
    visit ∈ node.baseVisits → visit.2 ∈ node.baseSources := by
  unfold baseVisits baseSources
  cases node.allOf with
  | some members => exact mem_snd_of_mem_numbered
  | none =>
      cases node.oneOf with
      | some members => exact mem_snd_of_mem_numbered
      | none =>
          cases node.anyOf with
          | some members => exact mem_snd_of_mem_numbered
          | none =>
              cases node.enum with
              | some values => exact nofun
              | none =>
                  intro h
                  obtain ⟨⟨name, kind⟩, hkind, hvisit⟩ := List.mem_flatMap.mp h
                  exact mem_typeSources_of_mem_kindVisits (List.fst_mem_of_mem_zipIdx hkind) hvisit

theorem map_snd_outerVisits : node.outerVisits.map Prod.snd = node.outerSources := by
  simp [outerVisits, outerSources]

theorem mem_children_of_mem_innerVisits {visit : SchemaStep × Schema}
    (h : visit ∈ node.innerVisits) : visit.2 ∈ node.children := by
  rcases List.mem_append.mp h with hbase | houter
  · exact TypeExpr.mem_children_of_mem_baseSources (mem_baseSources_of_mem_baseVisits hbase)
  · split at houter
    · refine TypeExpr.mem_children_of_mem_outerSources ?_
      rw [← map_snd_outerVisits]
      exact List.mem_map_of_mem houter
    · cases houter

end SchemaObject

namespace Schema

/-- The nodes that the lowering of a schema comes to, each with the way to it. -/
def visits : Schema → List (List SchemaStep × SchemaObject)
  | .reference _ => []
  | .inline node => ([], node) :: node.innerVisits.attach.flatMap fun ⟨visit, _⟩ =>
      (visits visit.2).map fun inner => (visit.1 :: inner.1, inner.2)
termination_by schema => sizeOf schema
decreasing_by
  rename_i hvisit
  exact @sizeOf_lt_of_mem_children (.inline node) _
    (SchemaObject.mem_children_of_mem_innerVisits hvisit)

theorem visits_reference (pointer : String) : visits (.reference pointer) = [] := by
  rw [visits]

theorem visits_inline (node : SchemaObject) :
    visits (.inline node) = ([], node) :: node.innerVisits.flatMap fun visit =>
      (visits visit.2).map fun inner => (visit.1 :: inner.1, inner.2) := by
  rw [visits, List.flatMap_subtype fun _ _ => rfl, List.unattach_attach]

/-! ### The order of the visits -/

/-- Each way comes behind its beginnings, which stand in front of it or are among the `seen`. -/
def OuterFirst (seen : List (List SchemaStep)) : List (List SchemaStep) → Prop
  | [] => True
  | way :: ways => (∀ front back, way = front ++ back → back ≠ [] → front ∈ seen)
      ∧ OuterFirst (way :: seen) ways

namespace OuterFirst

variable {seen more ways first second : List (List SchemaStep)}

theorem mono (h : OuterFirst seen ways) (hsub : seen ⊆ more) : OuterFirst more ways := by
  induction ways generalizing seen more with
  | nil => trivial
  | cons way ways ih =>
      refine ⟨fun front back hway hback => hsub (h.1 front back hway hback), ih h.2 ?_⟩
      exact List.cons_subset_cons way hsub

theorem append (hfirst : OuterFirst seen first) (hsecond : OuterFirst seen second) :
    OuterFirst seen (first ++ second) := by
  induction first generalizing seen with
  | nil => exact hsecond
  | cons way first ih =>
      exact ⟨hfirst.1, ih hfirst.2 (hsecond.mono (List.subset_cons_self way seen))⟩

theorem flatMap {α : Type} {items : List α} {f : α → List (List SchemaStep)}
    (h : ∀ item ∈ items, OuterFirst seen (f item)) : OuterFirst seen (items.flatMap f) := by
  induction items with
  | nil => trivial
  | cons item items ih =>
      obtain ⟨hitem, hitems⟩ := List.forall_mem_cons.mp h
      exact hitem.append (ih hitems)

/-- Behind a step, the beginnings are the start and what is a beginning without the step. -/
theorem behind (h : OuterFirst seen ways) (step : SchemaStep) :
    OuterFirst ([] :: seen.map (step :: ·)) (ways.map (step :: ·)) := by
  induction ways generalizing seen with
  | nil => trivial
  | cons way ways ih =>
      refine ⟨fun front back hway hback => ?_, (ih h.2).mono ?_⟩
      · cases front with
        | nil => exact List.mem_cons_self
        | cons other front =>
            obtain ⟨rfl, htail⟩ :=
              List.cons.inj (show step :: way = other :: (front ++ back) from hway)
            exact List.mem_cons_of_mem _ (List.mem_map_of_mem (h.1 front back htail hback))
      · simp [List.cons_subset]

end OuterFirst

/-- **A node is visited after the nodes around it.** -/
theorem outerFirst_visits (schema : Schema) : OuterFirst [] ((visits schema).map Prod.fst) := by
  induction schema using Schema.induction with
  | step schema ih =>
      cases schema with
      | reference pointer =>
          rw [visits_reference]
          trivial
      | inline node =>
          rw [visits_inline, List.map_cons, List.map_flatMap]
          refine ⟨fun front back hway hback => ?_, OuterFirst.flatMap fun visit hvisit => ?_⟩
          · exact absurd (List.append_eq_nil_iff.mp hway.symm).2 hback
          · have hinner := ih visit.2 (SchemaObject.mem_children_of_mem_innerVisits hvisit)
            rw [List.map_map]
            have hbehind := hinner.behind visit.1
            rw [List.map_map] at hbehind
            exact hbehind

/-! ### Different ways -/

end Schema

namespace SchemaObject

variable {node : SchemaObject} {step : SchemaStep}

/-- The node is made an object at most once, and an array at most once. -/
def MadeOnce (node : SchemaObject) : Prop :=
  ¬node.kinds.Duplicate "object" ∧ ¬node.kinds.Duplicate "array"

theorem nodup_kindVisits (kind : Nat) (name : String) :
    ((node.kindVisits kind name).map Prod.fst).Nodup := by
  unfold kindVisits
  split
  · exact nodup_numbered (fun i j h => (SchemaStep.property.inj h).2) _
  · split
    · cases node.items <;> simp
    · exact List.nodup_nil

/-- The step into a node as one of its kinds tells the kind. -/
theorem kind_of_mem_kindVisits {kind : Nat} {name : String}
    (h : step ∈ (node.kindVisits kind name).map Prod.fst) :
    (name = "object" ∧ ∃ index, step = .property kind index)
      ∨ name = "array" ∧ step = .items kind := by
  obtain ⟨visit, hvisit, rfl⟩ := List.mem_map.mp h
  unfold kindVisits at hvisit
  split at hvisit
  case isTrue hname =>
      obtain ⟨⟨schema, index⟩, -, rfl⟩ := List.mem_map.mp hvisit
      exact .inl ⟨hname, index, rfl⟩
  case isFalse =>
      split at hvisit
      case isTrue hname =>
          obtain ⟨item, -, rfl⟩ := List.mem_map.mp hvisit
          exact .inr ⟨hname, rfl⟩
      case isFalse => cases hvisit

/-- The step leads from the node into its base. -/
def BaseStep (node : SchemaObject) : SchemaStep → Prop
  | .property kind _ => node.kinds[kind]? = some "object"
  | .items kind => node.kinds[kind]? = some "array"
  | .additional | .not => False
  | .allOf _ | .oneOf _ | .anyOf _ => True

theorem baseStep_of_mem (h : step ∈ node.baseVisits.map Prod.fst) : node.BaseStep step := by
  have hnumbered : ∀ {steps : Nat → SchemaStep} {members : List Schema},
      step ∈ (numbered steps members).map Prod.fst → ∃ index, steps index = step := by
    intro steps members hmem
    obtain ⟨visit, hvisit, rfl⟩ := List.mem_map.mp hmem
    obtain ⟨⟨schema, index⟩, -, rfl⟩ := List.mem_map.mp hvisit
    exact ⟨index, rfl⟩
  unfold baseVisits at h
  split at h
  · obtain ⟨index, rfl⟩ := hnumbered h
    trivial
  · obtain ⟨index, rfl⟩ := hnumbered h
    trivial
  · obtain ⟨index, rfl⟩ := hnumbered h
    trivial
  · cases h
  · rw [List.map_flatMap] at h
    obtain ⟨⟨name, kind⟩, hkind, hstep⟩ := List.mem_flatMap.mp h
    have hname : node.kinds[kind]? = some name := List.mem_zipIdx_iff_getElem?.mp hkind
    rcases kind_of_mem_kindVisits hstep with ⟨rfl, index, rfl⟩ | ⟨rfl, rfl⟩ <;> exact hname

theorem nodup_baseVisits : (node.baseVisits.map Prod.fst).Nodup := by
  unfold baseVisits
  split
  · exact nodup_numbered (fun _ _ => SchemaStep.allOf.inj) _
  · exact nodup_numbered (fun _ _ => SchemaStep.oneOf.inj) _
  · exact nodup_numbered (fun _ _ => SchemaStep.anyOf.inj) _
  · exact List.nodup_nil
  · rw [List.map_flatMap, List.nodup_flatMap]
    refine ⟨fun entry _ => nodup_kindVisits entry.2 entry.1, ?_⟩
    have hindices : (node.kinds.zipIdx.map Prod.snd).Nodup := by
      rw [List.zipIdx_map_snd]
      exact List.nodup_range'
    refine (List.pairwise_map.mp hindices).imp fun {first second} hne step hfirst hsecond => hne ?_
    rcases kind_of_mem_kindVisits hfirst with ⟨-, index, rfl⟩ | ⟨-, rfl⟩
    · rcases kind_of_mem_kindVisits hsecond with ⟨-, other, h⟩ | ⟨-, h⟩
      · exact (SchemaStep.property.inj h).1
      · cases h
    · rcases kind_of_mem_kindVisits hsecond with ⟨-, other, h⟩ | ⟨-, h⟩
      · cases h
      · exact SchemaStep.items.inj h

theorem step_of_mem_outerVisits (h : step ∈ node.outerVisits.map Prod.fst) :
    step = .additional ∨ step = .not := by
  obtain ⟨visit, hvisit, rfl⟩ := List.mem_map.mp h
  rcases List.mem_append.mp hvisit with hvisit | hvisit
  · obtain ⟨values, -, rfl⟩ := List.mem_map.mp hvisit
    exact .inl rfl
  · obtain ⟨excluded, -, rfl⟩ := List.mem_map.mp hvisit
    exact .inr rfl

theorem nodup_outerVisits : (node.outerVisits.map Prod.fst).Nodup := by
  unfold outerVisits
  cases node.additionalProperties.bind AdditionalProperties.schema? <;> cases node.not <;> simp

theorem step_of_mem_innerVisits (h : step ∈ node.innerVisits.map Prod.fst) :
    node.BaseStep step ∨ step = .additional ∨ step = .not := by
  rw [innerVisits, List.map_append] at h
  rcases List.mem_append.mp h with hbase | houter
  · exact .inl (baseStep_of_mem hbase)
  · split at houter
    · exact .inr (step_of_mem_outerVisits houter)
    · cases houter

theorem nodup_innerVisits : (node.innerVisits.map Prod.fst).Nodup := by
  rw [innerVisits, List.map_append]
  split
  · refine nodup_baseVisits.append nodup_outerVisits fun step hbase houter => ?_
    have hstep := baseStep_of_mem hbase
    rcases step_of_mem_outerVisits houter with rfl | rfl <;> exact hstep
  · simpa using nodup_baseVisits

theorem eq_of_not_duplicate {kinds : List String} {name : String} {first second : Nat}
    (h : ¬kinds.Duplicate name) (hfirst : kinds[first]? = some name)
    (hsecond : kinds[second]? = some name) : first = second := by
  have hlt : ∀ {i j : Nat}, kinds[i]? = some name → kinds[j]? = some name → ¬i < j := by
    intro i j hi hj hij
    obtain ⟨hi, hnamei⟩ := List.getElem?_eq_some_iff.mp hi
    obtain ⟨hj, hnamej⟩ := List.getElem?_eq_some_iff.mp hj
    exact h (List.duplicate_iff_exists_distinct_get.mpr
      ⟨⟨i, hi⟩, ⟨j, hj⟩, hij, hnamei.symm, hnamej.symm⟩)
  have hle := hlt hfirst hsecond
  have hge := hlt hsecond hfirst
  omega

/-- A node that is made an object and an array at most once is left for each place by one step. -/
theorem nodup_places (hnode : node.MadeOnce) :
    (node.innerVisits.map fun visit => visit.1.place).Nodup := by
  have hplaces : (node.innerVisits.map fun visit => visit.1.place)
      = (node.innerVisits.map Prod.fst).map SchemaStep.place := by
    rw [List.map_map]
    rfl
  rw [hplaces]
  refine nodup_innerVisits.map_on fun first hfirst second hsecond heq => ?_
  have hfrom := step_of_mem_innerVisits hfirst
  have hto := step_of_mem_innerVisits hsecond
  -- only the steps that tell a kind lose anything, and for each there is one kind
  cases first <;> cases second <;> simp only [SchemaStep.place, reduceCtorEq] at heq
  case property.property kind index other _ =>
      obtain ⟨-, rfl⟩ := SchemaStep.property.inj heq
      obtain rfl : kind = other := by
        simp only [BaseStep, reduceCtorEq, or_false] at hfrom hto
        exact eq_of_not_duplicate hnode.1 hfrom hto
      rfl
  case items.items kind other =>
      obtain rfl : kind = other := by
        simp only [BaseStep, reduceCtorEq, or_false] at hfrom hto
        exact eq_of_not_duplicate hnode.2 hfrom hto
      rfl
  all_goals first | exact heq | rfl

end SchemaObject

namespace Schema

theorem mem_visits_inline {node inner : SchemaObject} {way : List SchemaStep} :
    (way, inner) ∈ visits (.inline node) ↔ way = [] ∧ inner = node
      ∨ ∃ visit ∈ node.innerVisits, ∃ rest, way = visit.1 :: rest
        ∧ (rest, inner) ∈ visits visit.2 := by
  rw [visits_inline, List.mem_cons, Prod.mk.injEq, List.mem_flatMap]
  refine or_congr_right (exists_congr fun visit => and_congr_right fun _ => ?_)
  simp only [List.mem_map, Prod.mk.injEq, Prod.exists]
  constructor
  · rintro ⟨rest, _, h, rfl, rfl⟩
    exact ⟨rest, rfl, h⟩
  · rintro ⟨rest, rfl, h⟩
    exact ⟨rest, inner, h, rfl, rfl⟩

/-- The ways are different, also as far as `f` tells them apart, if it tells the steps apart that
lead away from one node. -/
theorem nodup_ways {f : SchemaStep → SchemaStep} {schema : Schema}
    (h : ∀ visit ∈ visits schema, (visit.2.innerVisits.map fun inner => f inner.1).Nodup) :
    ((visits schema).map fun visit => visit.1.map f).Nodup := by
  induction schema using Schema.induction with
  | step schema ih =>
      cases schema with
      | reference pointer =>
          rw [visits_reference]
          exact List.nodup_nil
      | inline node =>
          have hsteps := h _ (mem_visits_inline.mpr (.inl ⟨rfl, rfl⟩))
          have hways : ((visits (.inline node)).map fun visit => visit.1.map f)
              = [] :: node.innerVisits.flatMap fun visit =>
                ((visits visit.2).map fun inner => inner.1.map f).map (f visit.1 :: ·) := by
            rw [visits_inline, List.map_cons, List.map_flatMap]
            simp only [List.map_map]
            rfl
          rw [hways, List.nodup_cons, List.nodup_flatMap]
          -- behind one step by induction; behind different steps the ways begin differently
          refine ⟨?_, fun visit hvisit => ?_, ?_⟩
          · simp
          · refine List.Nodup.map (List.cons_injective) ?_
            have hchild := SchemaObject.mem_children_of_mem_innerVisits hvisit
            refine ih visit.2 hchild fun inner hinner => ?_
            exact h (visit.1 :: inner.1, inner.2)
              (mem_visits_inline.mpr (.inr ⟨visit, hvisit, inner.1, rfl, hinner⟩))
          · refine (List.pairwise_map.mp hsteps).imp ?_
            refine fun {first second} hne way hfirst hsecond => hne ?_
            obtain ⟨_, -, rfl⟩ := List.mem_map.mp hfirst
            obtain ⟨_, -, hway⟩ := List.mem_map.mp hsecond
            exact (List.cons.inj hway).1.symm

end Schema
end OpenApi
end ApiTypings
