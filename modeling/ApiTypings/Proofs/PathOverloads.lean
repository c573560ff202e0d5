/-
One overload for each path, method and request content.

The overloads of a document come in groups: those of one operation are a group, those of one
path are the groups of its operations, and a scope receives those of the paths one after the
other.  At each level a list is walked, everything that is found is appended, and the first
failure ends the walk.  So what a scope holds in the end can be said without the walk: the
groups in their order, each of them as it is for its own operation alone, or the groups of
the paths before the first one that fails.
-/
import Mathlib
import ApiTypings.Proofs.OperationOverloads
import ApiTypings.Proofs.ParameterOverlay

namespace ApiTypings

open OpenApi

namespace OpenApi.PathItem

/-- The operations that an item defines among the methods, in the order of the methods. -/
def operationsAmong (item : PathItem) (methods : List Method) : List (Method × Operation) :=
  methods.filterMap fun method =>
    match item.slots method with
    | .operation operation => some (method, operation)
    | _ => none

theorem operationsAmong_skip {item : PathItem} {method : Method} (methods : List Method)
    (h : ∀ operation, item.slots method ≠ .operation operation) :
    item.operationsAmong (method :: methods) = item.operationsAmong methods := by
  rw [operationsAmong, List.filterMap_cons]
  split
  · rfl
  · rename_i entry hentry
    split at hentry
    · exact absurd ‹_› (h _)
    · cases hentry

theorem operationsAmong_cons {item : PathItem} {method : Method} {operation : Operation}
    (methods : List Method) (h : item.slots method = .operation operation) :
    item.operationsAmong (method :: methods)
      = (method, operation) :: item.operationsAmong methods := by
  rw [operationsAmong, List.filterMap_cons, h]
  rfl

/-- The operations of an item in the order in which they are visited. -/
def operations (item : PathItem) : List (Method × Operation) := item.operationsAmong Method.all

theorem mem_all (method : Method) : method ∈ Method.all := by
  cases method <;> decide

theorem mem_operations {item : PathItem} {method : Method} {operation : Operation} :
    (method, operation) ∈ item.operations ↔ item.slots method = .operation operation := by
  rw [operations, operationsAmong, List.mem_filterMap]
  constructor
  · rintro ⟨found, -, hfound⟩
    split at hfound
    · rename_i hslot
      cases hfound
      exact hslot
    · cases hfound
  · intro hslot
    exact ⟨method, mem_all method, by rw [hslot]⟩

/-- The item in effect for a path: the item of the path or, if this has a reference, the item with
the one that the reference leads to laid over it. -/
inductive InEffect (document : Document) (item : PathItem) : PathItem → Prop
  | own (hreference : item.reference = none) : InEffect document item item
  | overlaid {reference : String} {other : PathItem} (hreference : item.reference = some reference)
      (htarget : document.target OpenApi.pathItem.decode reference = .ok other) :
      InEffect document item (item.overlay other)

theorem InEffect.eq_of_none {document : Document} {item effective : PathItem}
    (h : item.InEffect document effective) (hnone : item.reference = none) : effective = item := by
  cases h with
  | own => rfl
  | overlaid hreference => cases hnone.symm.trans hreference

end OpenApi.PathItem

namespace Overload

variable {document : Document} {settings : Settings} {pattern : String}

/-! ### One path -/

theorem effectiveItem_eq_ok {item effective : PathItem} :
    effectiveItem document item = .ok effective ↔ item.InEffect document effective := by
  rw [effectiveItem]
  constructor
  · intro h
    split at h
    · rename_i hreference
      cases h
      exact .own hreference
    · rename_i hreference
      split at h
      · rename_i htarget
        cases h
        exact .overlaid hreference htarget
      · cases h
  · rintro (hreference | ⟨hreference, htarget⟩)
    · rw [hreference]
    · rw [hreference]
      dsimp only
      rw [htarget]

/-- A path whose reference does not lead to an item fails as the reference does. -/
theorem ofPathItem_of_target {item : PathItem} {reference : String} {failure : Failure}
    (hreference : item.reference = some reference)
    (htarget : document.target OpenApi.pathItem.decode reference = .error failure) :
    ofPathItem document settings pattern item = .error failure := by
  rw [ofPathItem, effectiveItem, hreference]
  dsimp only
  rw [htarget]
  rfl

theorem exists_mem_left {α β : Type} {R : α → β → Prop} {items : List α} {partners : List β}
    (h : List.Forall₂ R items partners) {partner : β} (hpartner : partner ∈ partners) :
    ∃ item ∈ items, R item partner := by
  induction h with
  | nil => cases hpartner
  | cons hfirst _ ih =>
      rcases List.mem_cons.mp hpartner with rfl | hpartner
      · exact ⟨_, List.mem_cons_self, hfirst⟩
      · obtain ⟨item, hitem, hR⟩ := ih hpartner
        exact ⟨item, List.mem_cons_of_mem _ hitem, hR⟩

/-- Several groups of overloads, with their warnings, as one. -/
def join (groups : List (List Signature × List Warning)) : List Signature × List Warning :=
  (groups.flatMap Prod.fst, groups.flatMap Prod.snd)

theorem join_cons (group : List Signature × List Warning)
    (groups : List (List Signature × List Warning)) :
    join (group :: groups) = (group.1 ++ (join groups).1, group.2 ++ (join groups).2) := rfl

theorem ofMethods_eq_ok_iff {shared : ParameterTable} {item : PathItem} {methods : List Method}
    {result : List Signature × List Warning} :
    ofMethods document settings pattern shared item methods = .ok result
      ↔ (∀ method ∈ methods, item.slots method ≠ .null)
        ∧ ∃ groups, List.Forall₂
            (fun entry => OfOperation document settings pattern shared entry.1 entry.2)
            (item.operationsAmong methods) groups ∧ result = join groups := by
  induction methods generalizing result with
  | nil =>
      constructor
      · intro h
        cases h
        exact ⟨nofun, [], .nil, rfl⟩
      · rintro ⟨-, groups, hgroups, rfl⟩
        cases hgroups
        rfl
  | cons method methods ih =>
      rw [ofMethods]
      split
      · rename_i hslot
        rw [ih, PathItem.operationsAmong_skip methods (by simp [hslot]), List.forall_mem_cons]
        simp [hslot]
      · rename_i hslot
        exact ⟨nofun, fun h => absurd hslot (h.1 method List.mem_cons_self)⟩
      · rename_i operation hslot
        rw [PathItem.operationsAmong_cons methods hslot, List.forall_mem_cons, bind_eq_ok]
        constructor
        · rintro ⟨group, hgroup, h⟩
          obtain ⟨rest, hrest, hpure⟩ := bind_eq_ok.mp h
          obtain ⟨hnull, groups, hgroups, rfl⟩ := ih.mp hrest
          cases hpure
          exact ⟨⟨by simp [hslot], hnull⟩, group :: groups,
            .cons (ofOperation_iff.mpr hgroup) hgroups, rfl⟩
        · rintro ⟨⟨-, hnull⟩, _, hall, rfl⟩
          cases hall with
          | cons hgroup hgroups =>
              refine ⟨_, hgroup.alone, bind_eq_ok.mpr ⟨_, ih.mpr ⟨hnull, _, hgroups, rfl⟩, rfl⟩⟩

/-- The overloads of a path, with their warnings: the groups of the operations that the item in
effect defines, each made from the parameters of the item and its own. -/
def OfPath (document : Document) (settings : Settings) (entry : String × PathItem)
    (result : List Signature × List Warning) : Prop :=
  ∃ item shared groups, entry.2.InEffect document item
    ∧ ParameterTable.add? document [] (item.parameters.getD []) = .ok shared
    ∧ (∀ method, item.slots method ≠ .null)
    ∧ List.Forall₂ (fun operation =>
        OfOperation document settings entry.1 shared operation.1 operation.2) item.operations groups
    ∧ result = join groups

theorem ofPath_iff {entry : String × PathItem} {result : List Signature × List Warning} :
    OfPath document settings entry result
      ↔ ofPathItem document settings entry.1 entry.2 = .ok result := by
  rw [ofPathItem, bind_eq_ok]
  simp only [effectiveItem_eq_ok]
  constructor
  · rintro ⟨item, shared, groups, hitem, hshared, hnull, hgroups, rfl⟩
    refine ⟨item, hitem, bind_eq_ok.mpr ⟨shared, hshared, ofMethods_eq_ok_iff.mpr ?_⟩⟩
    exact ⟨fun method _ => hnull method, groups, hgroups, rfl⟩
  · rintro ⟨item, hitem, h⟩
    obtain ⟨shared, hshared, h⟩ := bind_eq_ok.mp h
    obtain ⟨hnull, groups, hgroups, rfl⟩ := ofMethods_eq_ok_iff.mp h
    exact ⟨item, shared, groups, hitem, hshared,
      fun method => hnull method (PathItem.mem_all method), hgroups, rfl⟩

/-- What an overload is made from: the item of its path and the parameters of the item, one of the
operations, what the overloads of the operation have in common, and a content of its body. -/
structure Origin where
  item : PathItem
  shared : ParameterTable
  operation : Operation
  common : Common
  content : Option (String × MediaType)

/-- The signature is the overload of a path item that is made from `origin`. -/
structure Origin.Makes (origin : Origin) (document : Document) (settings : Settings)
    (pattern : String) (item : PathItem) (signature : Signature) : Prop where
  item : item.InEffect document origin.item
  shared : ParameterTable.add? document [] (origin.item.parameters.getD []) = .ok origin.shared
  operation : origin.item.slots origin.common.method = .operation origin.operation
  common : commonOf document settings pattern origin.shared origin.common.method origin.operation
    = .ok origin.common
  content : origin.content ∈ contentsOf origin.common.body
  overload : signature = overload settings origin.common origin.content

theorem exists_origin {item : PathItem} {result : List Signature × List Warning}
    (h : ofPathItem document settings pattern item = .ok result) {signature : Signature}
    (hsignature : signature ∈ result.1) :
    ∃ origin : Origin, origin.Makes document settings pattern item signature := by
  obtain ⟨effective, shared, groups, hitem, hshared, -, hgroups, rfl⟩ :
    OfPath document settings (pattern, item) result := ofPath_iff.mpr h
  obtain ⟨group, hgroup, hsignature⟩ := List.mem_flatMap.mp hsignature
  obtain ⟨⟨method, operation⟩, hoperation, hof⟩ := exists_mem_left hgroups hgroup
  obtain ⟨common, hcommon, hoverloads⟩ := exists_commonOf hof.alone
  rw [hoverloads] at hsignature
  obtain ⟨content, hcontent, rfl⟩ := List.mem_map.mp hsignature
  obtain ⟨rfl, -⟩ := commonOf_eq_ok hcommon
  exact ⟨⟨effective, shared, operation, common, content⟩, hitem, hshared,
    PathItem.mem_operations.mp hoperation, hcommon, hcontent, rfl⟩

/-- What an overload is made from are the parameters that its path and its operation declare, in
this order. -/
theorem Origin.Makes.exists_declares {origin : Origin} {item : PathItem} {signature : Signature}
    (h : origin.Makes document settings pattern item signature) :
    ∃ declared, ParameterTable.Declares document
        (origin.item.parameters.getD [] ++ origin.operation.parameters) declared
      ∧ origin.common.table = declared.foldl ParameterTable.insert [] := by
  obtain ⟨-, htable, -⟩ := commonOf_eq_ok h.common
  obtain ⟨first, hfirst, hshared⟩ := ParameterTable.exists_declares h.shared
  obtain ⟨second, hsecond, hall⟩ := ParameterTable.exists_declares htable
  refine ⟨first ++ second, List.rel_append hfirst hsecond, ?_⟩
  rw [hall, hshared, List.foldl_append]

/-! ### All paths -/

theorem addFunctions_addFunctions (scope : Scope) (first second : List Signature) :
    (scope.addFunctions first).addFunctions second = scope.addFunctions (first ++ second) := by
  simp [Scope.addFunctions]

theorem addFunctions_nil (scope : Scope) : scope.addFunctions [] = scope := by
  simp [Scope.addFunctions]

/-- The outcome of a walk over paths, with the warnings of the paths before it. -/
def after (warnings : List Warning) (outcome : Scope × Except Failure (List Warning)) :
    Scope × Except Failure (List Warning) :=
  (outcome.1, outcome.2.map (warnings ++ ·))

theorem after_nil (outcome : Scope × Except Failure (List Warning)) :
    after [] outcome = outcome := by
  obtain ⟨scope, result⟩ := outcome
  cases result <;> rfl

theorem after_after (first second : List Warning)
    (outcome : Scope × Except Failure (List Warning)) :
    after first (after second outcome) = after (first ++ second) outcome := by
  obtain ⟨scope, result⟩ := outcome
  cases result <;> simp [after, Except.map]

theorem addPaths_cons_ok {entry : String × PathItem} {result : List Signature × List Warning}
    (h : ofPathItem document settings entry.1 entry.2 = .ok result)
    (paths : List (String × PathItem)) (scope : Scope) :
    addPaths document settings (entry :: paths) scope
      = after result.2 (addPaths document settings paths (scope.addFunctions result.1)) := by
  obtain ⟨pattern, item⟩ := entry
  rw [addPaths, h]
  dsimp only
  split <;> rename_i heq <;> rw [heq] <;> rfl

theorem addPaths_cons_error {entry : String × PathItem} {failure : Failure}
    (h : ofPathItem document settings entry.1 entry.2 = .error failure)
    (paths : List (String × PathItem)) (scope : Scope) :
    addPaths document settings (entry :: paths) scope = (scope, .error failure) := by
  obtain ⟨pattern, item⟩ := entry
  rw [addPaths, h]

/-- Behind paths that all have overloads the walk goes on, with the overloads in the scope. -/
theorem addPaths_append {before : List (String × PathItem)}
    {results : List (List Signature × List Warning)}
    (h : List.Forall₂ (OfPath document settings) before results) (rest : List (String × PathItem))
    (scope : Scope) :
    addPaths document settings (before ++ rest) scope
      = after (join results).2
        (addPaths document settings rest (scope.addFunctions (join results).1)) := by
  induction h generalizing scope with
  | nil =>
      show _ = after [] (addPaths document settings rest (scope.addFunctions []))
      rw [after_nil, addFunctions_nil, List.nil_append]
  | cons hentry _ ih =>
      rw [List.cons_append, addPaths_cons_ok (ofPath_iff.mp hentry), ih, addFunctions_addFunctions,
        after_after, join_cons]

/-- The walk to the end. -/
theorem addPaths_all {paths : List (String × PathItem)}
    {results : List (List Signature × List Warning)}
    (h : List.Forall₂ (OfPath document settings) paths results) (scope : Scope) :
    addPaths document settings paths scope
      = (scope.addFunctions (join results).1, .ok (join results).2) := by
  have hwalk := addPaths_append h [] scope
  rw [List.append_nil] at hwalk
  rw [hwalk, addPaths, after, Except.map, List.append_nil]

/-- The walk up to a path that has no overloads. -/
theorem addPaths_upTo {before : List (String × PathItem)}
    {results : List (List Signature × List Warning)}
    (h : List.Forall₂ (OfPath document settings) before results) {entry : String × PathItem}
    {failure : Failure} (hentry : ofPathItem document settings entry.1 entry.2 = .error failure)
    (rest : List (String × PathItem)) (scope : Scope) :
    addPaths document settings (before ++ entry :: rest) scope
      = (scope.addFunctions (join results).1, .error failure) := by
  rw [addPaths_append h, addPaths_cons_error hentry, after, Except.map]

/-- Every list of paths is walked to its end, or up to a first path that has no overloads. -/
theorem exists_results (document : Document) (settings : Settings)
    (paths : List (String × PathItem)) :
    (∃ results, List.Forall₂ (OfPath document settings) paths results)
      ∨ ∃ before entry rest results failure, paths = before ++ entry :: rest
        ∧ List.Forall₂ (OfPath document settings) before results
        ∧ ofPathItem document settings entry.1 entry.2 = .error failure := by
  induction paths with
  | nil => exact .inl ⟨[], .nil⟩
  | cons entry paths ih =>
      cases hentry : ofPathItem document settings entry.1 entry.2 with
      | error failure => exact .inr ⟨[], entry, paths, [], failure, rfl, .nil, hentry⟩
      | ok result =>
          have hresult := ofPath_iff.mpr hentry
          obtain ⟨results, hresults⟩
            | ⟨before, next, rest, results, failure, rfl, hbefore, hnext⟩ := ih
          · exact .inl ⟨result :: results, .cons hresult hresults⟩
          · exact .inr ⟨entry :: before, next, rest, result :: results, failure, rfl,
              .cons hresult hbefore, hnext⟩

/-- Each item of a list has a partner if and only if there is a list of partners. -/
theorem exists_forall₂_iff {α β : Type} {R : α → β → Prop} {items : List α} :
    (∃ partners, List.Forall₂ R items partners) ↔ ∀ item ∈ items, ∃ partner, R item partner := by
  induction items with
  | nil => exact iff_of_true ⟨[], .nil⟩ nofun
  | cons item items ih =>
      rw [List.forall_mem_cons, ← ih]
      constructor
      · rintro ⟨_, hpartners⟩
        cases hpartners with
        | cons hitem hrest => exact ⟨⟨_, hitem⟩, _, hrest⟩
      · rintro ⟨⟨partner, hitem⟩, partners, hrest⟩
        exact ⟨_, .cons hitem hrest⟩

/-- How a walk over paths ends: with the overloads of all of them, or at the first one that fails
with the overloads of those before it. -/
inductive Walked (document : Document) (settings : Settings) (paths : List (String × PathItem))
    (scope : Scope) : Scope × Except Failure (List Warning) → Prop
  | all {results : List (List Signature × List Warning)}
      (hpaths : List.Forall₂ (OfPath document settings) paths results) :
      Walked document settings paths scope
        (scope.addFunctions (join results).1, .ok (join results).2)
  | upTo {before rest : List (String × PathItem)} {entry : String × PathItem}
      {results : List (List Signature × List Warning)} {failure : Failure}
      (hsplit : paths = before ++ entry :: rest)
      (hbefore : List.Forall₂ (OfPath document settings) before results)
      (hentry : ofPathItem document settings entry.1 entry.2 = .error failure) :
      Walked document settings paths scope (scope.addFunctions (join results).1, .error failure)

theorem addPaths_eq_iff {paths : List (String × PathItem)} {scope : Scope}
    {outcome : Scope × Except Failure (List Warning)} :
    addPaths document settings paths scope = outcome
      ↔ Walked document settings paths scope outcome := by
  constructor
  · rintro rfl
    obtain ⟨results, hresults⟩ | ⟨before, entry, rest, results, failure, rfl, hbefore, hentry⟩ :=
      exists_results document settings paths
    · rw [addPaths_all hresults]
      exact .all hresults
    · rw [addPaths_upTo hbefore hentry]
      exact .upTo rfl hbefore hentry
  · rintro (hpaths | ⟨rfl, hbefore, hentry⟩)
    · exact addPaths_all hpaths scope
    · exact addPaths_upTo hbefore hentry _ scope

/-- **Exactly one overload for each path, method and request content.**  The paths have overloads if
and only if each of them has.  The scope then holds what it held before and behind it the groups of
overloads path by path, in the order of the document, and within a path method by method, in the
order of the methods; a group is what its operation has by itself.  Otherwise the failure is the one
of the first path that fails, and the scope holds the groups of the paths before it.  A path whose
reference leads nowhere fails. -/
theorem addPaths_exact (document : Document) (settings : Settings)
    (paths : List (String × PathItem)) (scope : Scope) :
    ((∃ final warnings, addPaths document settings paths scope = (final, .ok warnings))
        ↔ ∀ entry ∈ paths, ∃ result, ofPathItem document settings entry.1 entry.2 = .ok result)
      ∧ (∀ final warnings, addPaths document settings paths scope = (final, .ok warnings)
        ↔ ∃ results, List.Forall₂ (OfPath document settings) paths results
          ∧ final = scope.addFunctions (join results).1 ∧ warnings = (join results).2)
      ∧ (∀ final failure, addPaths document settings paths scope = (final, .error failure)
        ↔ ∃ before entry rest results, paths = before ++ entry :: rest
          ∧ List.Forall₂ (OfPath document settings) before results
          ∧ ofPathItem document settings entry.1 entry.2 = .error failure
          ∧ final = scope.addFunctions (join results).1)
      ∧ ∀ entry ∈ paths, ∀ reference failure, entry.2.reference = some reference →
          document.target OpenApi.pathItem.decode reference = .error failure →
          ofPathItem document settings entry.1 entry.2 = .error failure := by
  have hdone (final : Scope) (warnings : List Warning) :
      addPaths document settings paths scope = (final, .ok warnings)
        ↔ ∃ results, List.Forall₂ (OfPath document settings) paths results
          ∧ final = scope.addFunctions (join results).1 ∧ warnings = (join results).2 := by
    rw [addPaths_eq_iff]
    constructor
    · rintro ⟨hpaths⟩
      exact ⟨_, hpaths, rfl, rfl⟩
    · rintro ⟨results, hpaths, rfl, rfl⟩
      exact .all hpaths
  refine ⟨?succeeds, hdone, fun final failure => ?failed,
    fun entry _ reference failure => ofPathItem_of_target⟩
  case succeeds =>
    have hall : (∃ final warnings, addPaths document settings paths scope = (final, .ok warnings))
        ↔ ∃ results, List.Forall₂ (OfPath document settings) paths results := by
      simp only [hdone]
      exact ⟨fun ⟨_, _, results, h⟩ => ⟨results, h.1⟩,
        fun ⟨results, h⟩ => ⟨_, _, results, h, rfl, rfl⟩⟩
    rw [hall, exists_forall₂_iff]
    simp only [ofPath_iff]
  case failed =>
    rw [addPaths_eq_iff]
    constructor
    · intro h
      cases h with
      | upTo hsplit hbefore hentry => exact ⟨_, _, _, _, hsplit, hbefore, hentry, rfl⟩
    · rintro ⟨before, entry, rest, results, hsplit, hbefore, hentry, rfl⟩
      exact .upTo hsplit hbefore hentry

theorem exists_of_toBool {outcome : Scope × Except Failure (List Warning)}
    (h : outcome.2.toBool = true) : ∃ final warnings, outcome = (final, .ok warnings) := by
  obtain ⟨final, result⟩ := outcome
  cases result with
  | error failure => cases h
  | ok warnings => exact ⟨final, warnings, rfl⟩

/-- A path with methods of its own, out of their order, and one of the item that it refers to; its
`POST` has two contents, and the query of its `GET` is left out elsewhere.  A path whose reference
leads nowhere ends the walk. -/
theorem addPaths_exact_overlay :
    let document : Document := ⟨.object [("x-items", .object [
      ("more", .object [("delete", .object [])])])], {}⟩
    let scope : Scope := { functions := [{ name := "old", arguments := [], returns := .unknown }] }
    let written (outcome : Scope × Except Failure (List Warning)) : List (List String) :=
      outcome.1.functions.map fun signature => signature.arguments.map (·.type.render)
    let url (query : String) := "\x60/pets/$\x7bstring\x7d" ++ query ++ "\x60"
    let init (method : String) :=
      "Omit<RequestInit, \"method\" | \"body\"> & \x7b method" ++ method ++ " \x7d"
    let post (body contentType : String) :=
      "Omit<RequestInit, \"method\" | \"body\" | \"headers\"> & \x7b method: \"POST\"; body?: "
        ++ body ++ "; headers: TypedHeadersInit<\x7b \"Content-Type\": " ++ contentType
        ++ " \x7d> \x7d"
    ∃ pets owners lost,
      OpenApi.pathItem.decode (.object [
        ("$ref", .string "#/x-items/more"),
        ("parameters", .array [.object [("name", .string "id"), ("in", .string "path"),
          ("required", .boolean true)]]),
        ("post", .object [("requestBody", .object [("content", .object [
          ("application/json", .object []), ("text/plain", .object [])])])]),
        ("get", .object [("parameters", .array [
          .object [("name", .string "limit"), ("in", .string "query")]])])]) = .ok pets
      ∧ OpenApi.pathItem.decode (.object [("get", .object [])]) = .ok owners
      ∧ OpenApi.pathItem.decode (.object [("$ref", .string "#/x-items/none")]) = .ok lost
      ∧ (let paths := [("/pets/\x7bid\x7d", pets), ("/owners", owners)]
        (∃ final warnings, addPaths document .relative paths scope = (final, .ok warnings))
          ∧ (∀ final warnings, addPaths document .relative paths scope = (final, .ok warnings) →
            ∃ results, List.Forall₂ (OfPath document .relative) paths results
              ∧ final = scope.addFunctions (join results).1 ∧ warnings = (join results).2)
          ∧ written (addPaths document .relative paths scope) = [
            [],
            [url "$\x7b\x60?$\x7bURLSearchParamsString<\x7b limit?: string \x7d>\x7d\x60 | \"\"\x7d",
              init "?: \"GET\""],
            [url "", post "JSONString<unknown>" "\"application/json\""],
            [url "", post "string" "\"text/plain\""],
            [url "", init ": \"DELETE\""],
            ["\x60/owners\x60", init "?: \"GET\""]])
      ∧ let paths := [("/owners", owners), ("/lost", lost), ("/pets/\x7bid\x7d", pets)]
        ofPathItem document .relative "/lost" lost
            = .error (.reference (.missing "#/x-items/none" "none"))
          ∧ (addPaths document .relative paths scope).2.toBool = false
          ∧ written (addPaths document .relative paths scope)
            = [[], ["\x60/owners\x60", init "?: \"GET\""]] := by
  intro document scope written url init post
  refine ⟨_, _, _, rfl, rfl, rfl, ⟨exists_of_toBool (by decide +kernel), ?walked,
    by decide +kernel⟩, ?lost, by decide +kernel, by decide +kernel⟩
  case walked =>
    exact fun final warnings => ((addPaths_exact _ _ _ _).2.1 final warnings).mp
  case lost =>
    have hmissing : Json.resolveChain document.tree "#/x-items/none"
        = .error (.missing "#/x-items/none" "none") := by decide +kernel
    refine (addPaths_exact document .relative [("/lost", _)] scope).2.2.2 _
      (List.mem_singleton_self _) "#/x-items/none" _ rfl ?_
    rw [Document.target, hmissing]

end Overload
end ApiTypings
