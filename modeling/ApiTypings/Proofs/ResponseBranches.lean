/-
What the branches of a return type say of the status.

A return type has a branch for each content of each declared response.  A branch begins with
`ok` and `status`, which are made from the codes of the key of the response: `status` lists the
codes, and `ok` says whether they are successes.

A code stands for itself, and every class has registered codes.  So the only branch that lists no
code is one of `default`, if each registered code is declared itself or by its class: nothing is
left over for it, and its status is `never`.
-/
import Mathlib
import ApiTypings.Proofs.FlatTypes
import ApiTypings.Proofs.PathOverloads
import ApiTypings.Proofs.StatusCodes

namespace ApiTypings

open OpenApi Inspect

/-! ### The codes of a key -/

namespace StatusCode

theorem isSuccess_iff {code : StatusCode} : isSuccess code = true ↔ 200 ≤ code ∧ code ≤ 299 := by
  simp only [isSuccess, Bool.and_eq_true, decide_eq_true_eq]
  exact and_congr_right fun _ => Nat.lt_succ_iff

namespace CodeSet

variable {set : CodeSet}

theorem success?_eq_true_iff :
    set.success? = some true ↔ ∀ code ∈ set.codes, isSuccess code = true := by
  unfold success?
  split
  · rename_i hall
    simpa using hall
  · rename_i hall
    split <;> simpa using hall

theorem success?_eq_none_iff :
    set.success? = none ↔ (∃ code ∈ set.codes, isSuccess code = true)
      ∧ ∃ code ∈ set.codes, ¬isSuccess code = true := by
  unfold success?
  split
  · rename_i hall
    simpa using fun _ _ _ => List.all_eq_true.mp hall
  · rename_i hall
    split
    · rename_i hany
      simpa using And.intro (List.any_eq_true.mp hany) hall
    · rename_i hany
      simp_all

/-- For a set without codes everything is said of all of them, and `true` comes first. -/
theorem success?_eq_false_iff (hne : set.codes ≠ []) :
    set.success? = some false ↔ ∀ code ∈ set.codes, ¬isSuccess code = true := by
  obtain ⟨first, hfirst⟩ := List.exists_mem_of_ne_nil _ hne
  unfold success?
  split
  · rename_i hall
    have hsuccess := List.all_eq_true.mp hall first hfirst
    simpa using ⟨first, hfirst, hsuccess⟩
  · split
    · rename_i hany
      simpa using List.any_eq_true.mp hany
    · rename_i hany
      simpa using hany

end CodeSet

/-! ### Keys without codes -/

theorem hundred_mem_standard {digit : Nat} (low : 1 ≤ digit) (high : digit ≤ 5) :
    digit * 100 ∈ Registry.standard.codes := by
  interval_cases digit <;> decide +kernel

variable {α : Type} {entries : List (String × α)} {sets : List (CodeSet × α)}
  {pair : (String × α) × (CodeSet × α)}

/-- **Only `default` may stand for no code**, and it does if nothing is left over. -/
theorem codes_eq_nil_iff (h : expand .standard entries = .ok sets)
    (hpair : pair ∈ entries.zip sets) :
    pair.2.1.codes = []
      ↔ pair.1.1 = "default" ∧ ∀ code, ¬LeftOver .standard entries code := by
  obtain ⟨key, -, hspells, -⟩ := codesOf_of_mem_zip h hpair
  have hmem (code : Nat) : code ∈ pair.2.1.codes ↔ _ := mem_codes_iff h hpair
  simp only [← Key.spells_default_iff, hspells.spells_iff] at hmem ⊢
  rw [List.eq_nil_iff_forall_not_mem]
  constructor
  · intro hnone
    cases key with
    | code n => exact absurd ((hmem n).mpr (.inl rfl)) (hnone n)
    | hundred digit =>
        have hrange : 1 ≤ digit ∧ digit ≤ 5 := by
          generalize pair.1.1 = text at hspells
          cases hspells with
          | hundred low high => exact ⟨low, high⟩
        have hregistered := hundred_mem_standard hrange.1 hrange.2
        refine absurd ((hmem (digit * 100)).mpr (.inr (.inl ⟨?_, hregistered⟩))) (hnone _)
        rw [Nat.mul_div_cancel _ (by decide)]
    | default =>
        exact ⟨rfl, fun code hleft => hnone code ((hmem code).mpr (.inr (.inr ⟨rfl, hleft⟩)))⟩
  · rintro ⟨rfl, hnone⟩ code hcode
    rcases (hmem code).mp hcode with hcode | ⟨hclass, -⟩ | ⟨-, hleft⟩
    · cases hcode
    · cases hclass
    · exact hnone code hleft

end StatusCode

/-! ### The branches of one response -/

namespace TypeExpr

variable {codes : StatusCode.CodeSet} {response : Response} {branch : TypeExpr}

/-- One branch for each content, or a single one without content. -/
def branchesOf (codes : StatusCode.CodeSet) (response : Response) : List TypeExpr :=
  match response.content with
  | [] => [object (responseHead codes)]
  | content => content.map fun entry =>
    object (responseHead codes ++ (accessorsOf entry.1 entry.2.schema).value)

theorem value_responseVariants (content : List (String × MediaType)) :
    (responseVariants codes content).value = content.map fun entry =>
      object (responseHead codes ++ (accessorsOf entry.1 entry.2.schema).value) :=
  (traverses_responseVariants codes).value_eq fun entry _ =>
    appends_accessorsOf entry.1 entry.2.schema

theorem branchesOf_ne_nil : branchesOf codes response ≠ [] := by
  unfold branchesOf
  split
  · exact List.cons_ne_nil _ _
  · rename_i hne
    exact fun hnil => hne (List.map_eq_nil_iff.mp hnil)

theorem exists_of_mem_branchesOf (h : branch ∈ branchesOf codes response) :
    ∃ accessors, branch = object (responseHead codes ++ accessors) := by
  unfold branchesOf at h
  split at h
  · exact ⟨[], by rw [List.append_nil]; exact List.mem_singleton.mp h⟩
  · obtain ⟨entry, -, rfl⟩ := List.mem_map.mp h
    exact ⟨_, rfl⟩

/-- The type of a response is the union of its branches. -/
theorem alternatives_ofResponse :
    (ofResponse codes response).value.alternatives = branchesOf codes response := by
  have hvalue : (ofResponse codes response).value = ofUnion (branchesOf codes response) := by
    unfold ofResponse branchesOf
    cases response.content with
    | nil => rfl
    | cons entry content => rw [value_bindPure, value_responseVariants]
  rw [hvalue]
  refine alternatives_ofUnion_self (fun branch hbranch inner => ?_) branchesOf_ne_nil
  obtain ⟨accessors, rfl⟩ := exists_of_mem_branchesOf hbranch
  exact nofun

/-! ### What a branch says of its codes -/

/-- What the members `ok` and `status` of a branch say of the codes of its key. -/
structure Discriminants (codes : List StatusCode) (ok status : TypeExpr) : Prop where
  listed : codes ≠ [] → status.alternatives = codes.map fun code => literal (.ofNat code)
  never : status = never ↔ codes = []
  succeeds : codes ≠ [] →
    (ok = literal (.boolean true) ↔ ∀ code ∈ codes, 200 ≤ code ∧ code ≤ 299)
  fails : codes ≠ [] →
    (ok = literal (.boolean false) ↔ ∀ code ∈ codes, ¬(200 ≤ code ∧ code ≤ 299))
  mixed : codes ≠ [] → (ok = boolean
    ↔ (∃ code ∈ codes, 200 ≤ code ∧ code ≤ 299) ∧ ∃ code ∈ codes, ¬(200 ≤ code ∧ code ≤ 299))

/-- The type of the member `ok`. -/
def okType (codes : StatusCode.CodeSet) : TypeExpr :=
  match codes.success? with
  | some isSuccess => literal (.boolean isSuccess)
  | none => boolean

/-- The type of the member `status`. -/
def statusType (codes : StatusCode.CodeSet) : TypeExpr :=
  ofUnion (codes.codes.map fun code => literal (.ofNat code))

theorem okType_eq_literal_iff {flag : Bool} :
    okType codes = literal (.boolean flag) ↔ codes.success? = some flag := by
  unfold okType
  cases codes.success? <;> simp [boolean]

theorem okType_eq_boolean_iff : okType codes = boolean ↔ codes.success? = none := by
  unfold okType
  cases codes.success? <;> simp [boolean]

theorem alternatives_statusType (hne : codes.codes ≠ []) :
    (statusType codes).alternatives = codes.codes.map fun code => literal (.ofNat code) := by
  refine alternatives_ofUnion_self (fun type htype inner => ?_) (by simpa using hne)
  obtain ⟨code, -, rfl⟩ := List.mem_map.mp htype
  exact nofun

theorem statusType_eq_never_iff : statusType codes = never ↔ codes.codes = [] := by
  constructor
  · intro hnever
    by_contra hne
    have hlisted : never ∈ codes.codes.map fun code => literal (.ofNat code) := by
      rw [← alternatives_statusType hne, hnever]
      exact List.mem_singleton_self never
    obtain ⟨code, -, hcode⟩ := List.mem_map.mp hlisted
    cases hcode
  · intro hnil
    rw [statusType, hnil]
    rfl

theorem discriminants_of (codes : StatusCode.CodeSet) :
    Discriminants codes.codes (okType codes) (statusType codes) where
  listed := alternatives_statusType
  never := statusType_eq_never_iff
  succeeds _ := by
    simp only [okType_eq_literal_iff, StatusCode.CodeSet.success?_eq_true_iff,
      StatusCode.isSuccess_iff]
  fails hne := by
    simp only [okType_eq_literal_iff, StatusCode.CodeSet.success?_eq_false_iff hne,
      StatusCode.isSuccess_iff]
  mixed _ := by
    simp only [okType_eq_boolean_iff, StatusCode.CodeSet.success?_eq_none_iff,
      StatusCode.isSuccess_iff]

end TypeExpr

/-! ### The return type of an operation -/

namespace Overload

variable {document : Document} {settings : Settings} {pattern : String} {shared : ParameterTable}
  {method : Method} {operation : Operation}
  {sets : List (StatusCode.CodeSet × Referable Response)} {types : List TypeExpr}

open TypeExpr

/-- The type is that of the response under the codes. -/
def Types (document : Document) (set : StatusCode.CodeSet × Referable Response) (type : TypeExpr) :
    Prop :=
  ∃ response, document.fetch OpenApi.response.decode set.2 = .ok response
    ∧ type = (ofResponse set.1 response).value

theorem types_of_typesOfResponses (h : typesOfResponses document sets = .ok types) :
    List.Forall₂ (Types document) sets types := by
  induction sets generalizing types with
  | nil =>
      cases h
      exact .nil
  | cons set sets ih =>
      obtain ⟨codes, entry⟩ := set
      obtain ⟨response, hresponse, h⟩ := bind_eq_ok.mp h
      obtain ⟨rest, hrest, h⟩ := bind_eq_ok.mp h
      cases h
      exact .cons ⟨response, hresponse, rfl⟩ (ih hrest)

/-- What an operation returns is made of the types of its responses. -/
theorem exists_responses_of_commonOf {common : Common}
    (h : commonOf document settings pattern shared method operation = .ok common) :
    ∃ sets types, StatusCode.expand .standard (operation.responses.getD []) = .ok sets
      ∧ List.Forall₂ (Types document) sets types ∧ common.returns = returnType types := by
  obtain ⟨table, body, sets, types, input, -, -, hsets, htypes, -, rfl⟩ :=
    exists_steps_of_commonOf h
  refine ⟨sets, types, ?_, types_of_typesOfResponses htypes, rfl⟩
  unfold expandResponses at hsets
  split at hsets <;> cases hsets
  assumption

/-- The branches of a return type are those of its responses. -/
theorem exists_of_mem_alternatives (h : List.Forall₂ (Types document) sets types)
    {branch : TypeExpr} (hbranch : branch ∈ types.flatMap alternatives) :
    ∃ set ∈ sets, ∃ accessors, branch = object (responseHead set.1 ++ accessors) := by
  obtain ⟨type, htype, hbranch⟩ := List.mem_flatMap.mp hbranch
  obtain ⟨set, hset, response, -, rfl⟩ := exists_mem_left h htype
  rw [alternatives_ofResponse] at hbranch
  exact ⟨set, hset, exists_of_mem_branchesOf hbranch⟩

theorem alternatives_ofUnion_responses (h : List.Forall₂ (Types document) sets types)
    (hne : sets ≠ []) :
    (ofUnion types).alternatives = types.flatMap alternatives := by
  refine alternatives_ofUnion_of_ne_union (fun part hpart inner => ?_) ?_
  · obtain ⟨set, -, accessors, rfl⟩ := exists_of_mem_alternatives h hpart
    exact nofun
  · cases h with
    | nil => exact absurd rfl hne
    | cons hfirst _ =>
        obtain ⟨response, -, rfl⟩ := hfirst
        rw [List.flatMap_cons, alternatives_ofResponse]
        exact List.append_ne_nil_of_left_ne_nil branchesOf_ne_nil _

/-- A return type with branches is the rest of a response and the union of the branches. -/
theorem returnType_eq (h : List.Forall₂ (Types document) sets types) (hne : sets ≠ []) :
    returnType types
      = promise (intersection [without "Response" responseAccessors, ofUnion types]) := by
  have hplain : ∀ inner, ofUnion types ≠ intersection inner := by
    intro inner hinner
    have hmem : intersection inner ∈ types.flatMap alternatives := by
      rw [← alternatives_ofUnion_responses h hne, hinner]
      exact List.mem_singleton_self _
    obtain ⟨set, -, accessors, hobject⟩ := exists_of_mem_alternatives h hmem
    cases hobject
  have hparts : [without "Response" responseAccessors, ofUnion types].flatMap conjuncts
      = [without "Response" responseAccessors, ofUnion types] := by
    rw [List.flatMap_cons, List.flatMap_cons, conjuncts_of_ne_intersection hplain]
    rfl
  cases h with
  | nil => exact absurd rfl hne
  | cons _ _ =>
      rw [returnType, ofIntersection, hparts]
      exact List.cons_ne_nil _ _

/-- What the branches of a return type say of the keys of the responses. -/
structure Discriminated (responses : List (String × Referable Response)) (returns : TypeExpr) :
    Prop where
  undeclared : responses = [] → returns = promise (.name "Response")
  declared : responses ≠ [] → ∃ sets branches,
    StatusCode.expand .standard responses = .ok sets
      ∧ returns = promise (intersection [without "Response" responseAccessors, branches])
      ∧ ∀ branch ∈ branches.alternatives, ∃ pair ∈ responses.zip sets, ∃ ok status accessors,
        branch = object (.property "ok" ok :: .property "status" status :: accessors)
          ∧ Discriminants pair.2.1.codes ok status
          ∧ (pair.2.1.codes = [] ↔ pair.1.1 = "default"
            ∧ ∀ code, ¬StatusCode.LeftOver .standard responses code)

theorem discriminated_of_commonOf {common : Common}
    (h : commonOf document settings pattern shared method operation = .ok common) :
    Discriminated (operation.responses.getD []) common.returns := by
  obtain ⟨sets, types, hsets, htypes, hreturns⟩ := exists_responses_of_commonOf h
  have hlength := StatusCode.length_of_expand hsets
  rw [hreturns]
  constructor
  · intro hnil
    rw [hnil] at hlength
    obtain rfl := List.eq_nil_of_length_eq_zero hlength.symm
    cases htypes
    rfl
  · intro hne
    have hsome : sets ≠ [] := by
      rintro rfl
      exact hne (List.eq_nil_of_length_eq_zero hlength)
    refine ⟨sets, _, hsets, returnType_eq htypes hsome, fun branch hbranch => ?_⟩
    rw [alternatives_ofUnion_responses htypes hsome] at hbranch
    obtain ⟨set, hset, accessors, rfl⟩ := exists_of_mem_alternatives htypes hbranch
    rw [← List.map_snd_zip hlength.ge] at hset
    obtain ⟨pair, hpair, rfl⟩ := List.mem_map.mp hset
    exact ⟨pair, hpair, _, _, accessors, rfl, discriminants_of pair.2.1,
      StatusCode.codes_eq_nil_iff hsets hpair⟩

/-- **The branches of a return type tell their codes.** Each belongs to a response key and lists the
codes that the key stands for, and `ok` says whether they are successes, none of them is, or it
depends.  Only a `default` for which no registered code is left over has a branch without codes,
and its status is `never`. -/
theorem discriminated_of_signature {item : PathItem} {result : List Signature × List Warning}
    (h : ofPathItem document settings pattern item = .ok result) :
    ∀ signature ∈ result.1, ∃ origin : Origin,
      origin.Makes document settings pattern item signature
        ∧ Discriminated (origin.operation.responses.getD []) signature.returns := by
  intro signature hsignature
  obtain ⟨origin, hmakes⟩ := exists_origin h hsignature
  refine ⟨origin, hmakes, ?_⟩
  rw [hmakes.overload]
  exact discriminated_of_commonOf hmakes.common

/-- A code and classes beside a `default`, which stands for all the others: some of them are
successes and some are not. -/
theorem discriminated_of_signature_pets :
    let codes (codes : List Nat) : TypeExpr := union (codes.map fun code => literal (.ofNat code))
    ∃ item result, OpenApi.pathItem.decode (.object [("get", .object [("responses", .object [
        ("200", .object []), ("3XX", .object []), ("4XX", .object []), ("5XX", .object []),
        ("default", .object [])])])]) = .ok item
      ∧ ofPathItem ⟨.object [], {}⟩ .relative "/pets" item = .ok result
      ∧ (∀ signature ∈ result.1, ∃ origin : Origin,
        origin.Makes ⟨.object [], {}⟩ .relative "/pets" item signature
          ∧ Discriminated (origin.operation.responses.getD []) signature.returns)
      ∧ ∃ returns omitted clientErrors serverErrors, result.1.map (·.returns) = [returns]
        ∧ returns = .named "Promise" [intersection [omitted, union [
          object [.property "ok" (literal (.boolean true)),
            .property "status" (literal (.ofNat 200))],
          object [.property "ok" (literal (.boolean false)),
            .property "status" (codes [300, 301, 302, 303, 304, 305, 307, 308])],
          clientErrors,
          serverErrors,
          object [.property "ok" boolean, .property "status"
            (codes [100, 101, 102, 103, 201, 202, 203, 204, 205, 206, 207, 208, 226])]]]] := by
  refine ⟨_, _, rfl, rfl, ?discriminated, _, _, _, _, rfl, rfl⟩
  exact discriminated_of_signature rfl

/-- All classes are declared, and `default` has a branch all the same. -/
theorem default_without_codes :
    ∃ item result, OpenApi.pathItem.decode (.object [("get", .object [("responses", .object [
        ("1XX", .object []), ("2XX", .object []), ("3XX", .object []), ("4XX", .object []),
        ("5XX", .object []), ("default", .object [])])])]) = .ok item
      ∧ ofPathItem ⟨.object [], {}⟩ .relative "/pets" item = .ok result
      ∧ ∃ signature ∈ result.1, ∃ omitted branches,
        signature.returns = promise (intersection [omitted, union branches])
          ∧ object [.property "ok" (literal (.boolean true)), .property "status" never]
            ∈ branches := by
  refine ⟨_, _, rfl, rfl, _, List.mem_singleton_self _, _, _, rfl, ?_⟩
  exact List.mem_of_getLast? rfl

end Overload
end ApiTypings
