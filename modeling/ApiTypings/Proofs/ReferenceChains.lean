/-
Chains of references end, and a cycle is reported exactly when there is one.

From a reference on, the tree names a sequence: after each reference comes the one that
stands where it points.  The sequence stops at a reference that leads nowhere, or at one that
leads to a value without a reference, and otherwise it comes to a reference that it had
before.  `resolveChain` reports which of the three it is.

References are told apart as texts, and one place of the tree has many: `0`, `00` and `+0` are
one position of an array.  A cycle is therefore found late, but it is found, because all
references after the first one are texts of the tree.

Two facts carry the proof.  What `follow` has used up is always the beginning of the sequence,
without repetition, and a walk along such a beginning does not change the result.
-/
import Mathlib
import ApiTypings.Json.Pointer

namespace ApiTypings.Json

/-! ### The sequence of references -/

/-- The reference that stands where a reference points. -/
def referenceBehind? (root : Json) (reference : String) : Option String :=
  match resolve root reference with
  | .ok value => referenceIn? value
  | .error _ => none

/-- The reference after a number of steps from `start`, if the sequence goes on for so long. -/
def referenceAfter (root : Json) (start : String) : Nat → Option String
  | 0 => some start
  | n + 1 => (referenceAfter root start n).bind (referenceBehind? root)

/-- The first references of the sequence, in order. -/
def IsTrail (root : Json) (start : String) (trail : List String) : Prop :=
  ∀ i < trail.length, referenceAfter root start i = trail[i]?

variable {root : Json} {start last next : String} {trail : List String}

theorem referenceBehind?_eq_some_iff :
    referenceBehind? root last = some next
      ↔ ∃ value, resolve root last = .ok value ∧ referenceIn? value = some next := by
  unfold referenceBehind?
  cases resolve root last <;> simp

theorem isTrail_singleton : IsTrail root start [start] := by
  intro i hi
  obtain rfl : i = 0 := by simpa using hi
  rfl

theorem IsTrail.init (h : IsTrail root start (trail ++ [last])) : IsTrail root start trail := by
  intro i hi
  have hlength : i < (trail ++ [last]).length := by simp; omega
  rw [h i hlength, List.getElem?_append_left hi]

theorem IsTrail.reaches (h : IsTrail root start (trail ++ [last])) :
    referenceAfter root start trail.length = some last := by
  rw [h trail.length (by simp)]
  simp

/-- A trail begins where the sequence begins. -/
theorem IsTrail.eq_start (h : IsTrail root start [last]) : last = start := by
  have hlast : some last = some start := (h 0 Nat.zero_lt_one).symm
  exact Option.some.inj hlast

/-- Each reference of a trail stands where the one before points. -/
theorem IsTrail.behind (h : IsTrail root start (trail ++ [last] ++ [next])) :
    referenceBehind? root last = some next := by
  have hnext := h.reaches
  rw [List.length_append, List.length_singleton, referenceAfter, h.init.reaches] at hnext
  exact hnext

theorem IsTrail.concat (h : IsTrail root start (trail ++ [last]))
    (hnext : referenceBehind? root last = some next) :
    IsTrail root start (trail ++ [last] ++ [next]) := by
  intro i hi
  by_cases hlt : i < (trail ++ [last]).length
  · rw [h i hlt, List.getElem?_append_left hlt]
  · obtain rfl : i = (trail ++ [last]).length := by
      rw [List.length_append, List.length_singleton] at hi
      omega
    rw [List.getElem?_concat_length, List.length_append, List.length_singleton, referenceAfter,
      h.reaches]
    exact hnext

/-- From equal references on, the sequence goes on alike. -/
theorem referenceAfter_add {i j : Nat}
    (h : referenceAfter root start i = referenceAfter root start j) (k : Nat) :
    referenceAfter root start (i + k) = referenceAfter root start (j + k) := by
  induction k with
  | zero => exact h
  | succ k ih => rw [← Nat.add_assoc, ← Nat.add_assoc, referenceAfter, referenceAfter, ih]

/-- A sequence that stops has not repeated itself, since it would have gone on as before. -/
theorem IsTrail.nodup_of_stop (h : IsTrail root start (trail ++ [last]))
    (hstop : referenceBehind? root last = none) : (trail ++ [last]).Nodup := by
  refine List.nodup_iff_getElem?_ne_getElem?.mpr fun i j hij hj heq => ?_
  have hlength : (trail ++ [last]).length = trail.length + 1 := by simp
  have hrepeat : referenceAfter root start i = referenceAfter root start j := by
    rw [h i (by omega), h j hj, heq]
  have hlast : referenceAfter root start (i + (trail.length - j)) = some last := by
    rw [referenceAfter_add hrepeat, Nat.add_sub_cancel' (by omega), h.reaches]
  have hover : referenceAfter root start (i + (trail.length - j) + 1) = none := by
    rw [referenceAfter, hlast]
    exact hstop
  rw [h _ (by omega), List.getElem?_eq_getElem (by omega)] at hover
  cases hover

/-- All references after the first are texts of the tree. -/
theorem IsTrail.mem_references (h : IsTrail root start (trail ++ [last])) :
    ∀ reference ∈ (trail ++ [last]).tail, reference ∈ references root := by
  induction trail using List.reverseRecOn generalizing last with
  | nil => exact nofun
  | append_singleton trail before ih =>
      obtain ⟨value, hvalue, hnext⟩ := referenceBehind?_eq_some_iff.mp h.behind
      rw [List.tail_append_of_ne_nil (by simp)]
      refine List.forall_mem_append.mpr ⟨ih h.init, List.forall_mem_singleton.mpr ?_⟩
      exact references_of_resolve hvalue _ (referenceIn?_mem hnext)

/-- A trail without repetition takes at most as many steps as the tree has texts. -/
theorem IsTrail.length_le (h : IsTrail root start (trail ++ [last]))
    (hnodup : (trail ++ [last]).Nodup) : trail.length ≤ (references root).toFinset.card :=
  calc trail.length
      = (trail ++ [last]).tail.length := by simp
    _ = (trail ++ [last]).tail.toFinset.card :=
        (List.toFinset_card_of_nodup (hnodup.sublist (List.tail_sublist _))).symm
    _ ≤ (references root).toFinset.card :=
        Finset.card_le_card fun reference hreference =>
          List.mem_toFinset.mpr (h.mem_references _ (List.mem_toFinset.mp hreference))

/-! ### What following a chain comes to -/

/-- How the sequence from `start` on ends, with the result of following it. -/
inductive Ends (root : Json) (start : String) : Except ReferenceError Json → Prop
  | found {trail : List String} {last : String} {value : Json}
      (htrail : IsTrail root start (trail ++ [last])) (hnodup : (trail ++ [last]).Nodup)
      (hvalue : resolve root last = .ok value) (hnone : referenceIn? value = none) :
      Ends root start (.ok value)
  | broken {trail : List String} {last : String} {error : ReferenceError}
      (htrail : IsTrail root start (trail ++ [last])) (hnodup : (trail ++ [last]).Nodup)
      (herror : resolve root last = .error error) : Ends root start (.error error)
  | repeated {trail : List String} {last : String}
      (htrail : IsTrail root start (trail ++ [last])) (hnodup : trail.Nodup)
      (hmem : last ∈ trail) : Ends root start (.error (.cycle (trail ++ [last])))

/-- One turn stops, or it makes the trail of used references longer by one; so what is used is a
trail without repetition all along. -/
theorem ends_follow (htrail : IsTrail root start (trail ++ [last]))
    (hnodup : (trail ++ [last]).Nodup) : Ends root start (follow root trail last) := by
  induction trail, last using follow.induct root with
  | case1 used reference error herror =>
      rw [follow_eq, herror]
      exact .broken htrail hnodup herror
  | case2 used reference value hvalue hnone =>
      rw [follow_eq, hvalue]
      simp only [hnone]
      exact .found htrail hnodup hvalue hnone
  | case3 used reference value hvalue next hnext hused =>
      rw [follow_eq, hvalue]
      simp only [hnext, if_pos hused]
      have hbehind := referenceBehind?_eq_some_iff.mpr ⟨value, hvalue, hnext⟩
      exact .repeated (htrail.concat hbehind) hnodup hused
  | case4 used reference value hvalue next hnext hunused ih =>
      rw [follow_eq, hvalue]
      simp only [hnext, if_neg hunused]
      have hbehind := referenceBehind?_eq_some_iff.mpr ⟨value, hvalue, hnext⟩
      exact ih (htrail.concat hbehind) (List.nodup_append.mpr ⟨hnodup, List.nodup_singleton _,
        fun a ha b hb hab => hunused (List.mem_singleton.mp hb ▸ hab ▸ ha)⟩)

/-- A trail without repetition is walked to its end. -/
theorem resolveChain_eq_follow (htrail : IsTrail root start (trail ++ [last]))
    (hnodup : (trail ++ [last]).Nodup) : resolveChain root start = follow root trail last := by
  induction trail using List.reverseRecOn generalizing last with
  | nil => rw [htrail.eq_start, resolveChain]
  | append_singleton trail before ih =>
      obtain ⟨hinit, -, hfresh⟩ := List.nodup_append.mp hnodup
      obtain ⟨value, hvalue, hnext⟩ := referenceBehind?_eq_some_iff.mp htrail.behind
      have hnew : last ∉ trail ++ [before] := fun h => hfresh last h last (by simp) rfl
      rw [ih htrail.init hinit, follow_eq, hvalue]
      simp only [hnext, if_neg hnew]

theorem resolveChain_eq_of_ends {result : Except ReferenceError Json}
    (h : Ends root start result) : resolveChain root start = result := by
  cases h with
  | found htrail hnodup hvalue hnone =>
      rw [resolveChain_eq_follow htrail hnodup, follow_eq, hvalue]
      simp only [hnone]
  | broken htrail hnodup herror =>
      rw [resolveChain_eq_follow htrail hnodup, follow_eq, herror]
  | @repeated trail last htrail hnodup hmem =>
      -- The repetition is noticed at the reference before, which the walk comes to.
      obtain ⟨before, used, rfl⟩ : ∃ before used, trail = used ++ [before] :=
        ⟨_, _, (List.dropLast_append_getLast (List.ne_nil_of_mem hmem)).symm⟩
      obtain ⟨value, hvalue, hnext⟩ := referenceBehind?_eq_some_iff.mp htrail.behind
      rw [resolveChain_eq_follow htrail.init hnodup, follow_eq, hvalue]
      simp only [hnext, if_pos hmem]

/-- **Following a chain of references reports how their sequence ends.** -/
theorem resolveChain_eq_iff {result : Except ReferenceError Json} :
    resolveChain root start = result ↔ Ends root start result := by
  refine ⟨fun h => ?_, resolveChain_eq_of_ends⟩
  have htrail : IsTrail root start ([] ++ [start]) := isTrail_singleton
  exact h ▸ ends_follow htrail (List.nodup_singleton _)

/-! ### The three ends -/

theorem child_ne_cycle {reference segment : String} {value : Json} {chain : List String} :
    child reference value segment ≠ .error (.cycle chain) := by
  unfold child
  split
  · simp
  · split <;> simp
  · split <;> simp
  · simp

theorem walk_ne_cycle {reference : String} {segments : List String} {value : Json}
    {chain : List String} : walk reference value segments ≠ .error (.cycle chain) := by
  induction segments generalizing value with
  | nil => simp [walk]
  | cons segment segments ih =>
      rw [walk]
      split
      · exact ih
      · rename_i error herror
        rintro ⟨rfl⟩
        exact child_ne_cycle herror

/-- A single reference is no cycle. -/
theorem resolve_ne_cycle {reference : String} {chain : List String} :
    resolve root reference ≠ .error (.cycle chain) := by
  unfold resolve
  split
  · simp
  · exact walk_ne_cycle

theorem referenceBehind?_of_error {error : ReferenceError} (h : resolve root last = .error error) :
    referenceBehind? root last = none := by
  rw [referenceBehind?, h]

theorem referenceBehind?_of_content {value : Json} (hvalue : resolve root last = .ok value)
    (hnone : referenceIn? value = none) : referenceBehind? root last = none := by
  rw [referenceBehind?, hvalue]
  exact hnone

/-- All references of a trail but the last point at something. -/
theorem IsTrail.resolves (h : IsTrail root start (trail ++ [last])) :
    ∀ reference ∈ trail, ∃ value, resolve root reference = .ok value := by
  induction trail using List.reverseRecOn generalizing last with
  | nil => exact nofun
  | append_singleton trail before ih =>
      obtain ⟨value, hvalue, -⟩ := referenceBehind?_eq_some_iff.mp h.behind
      exact List.forall_mem_append.mpr
        ⟨ih h.init, List.forall_mem_singleton.mpr ⟨value, hvalue⟩⟩

theorem resolveChain_eq_ok_iff {value : Json} :
    resolveChain root start = .ok value ↔
      ∃ trail last, IsTrail root start (trail ++ [last]) ∧ (trail ++ [last]).Nodup
        ∧ resolve root last = .ok value ∧ referenceIn? value = none := by
  rw [resolveChain_eq_iff]
  constructor
  · rintro ⟨htrail, hnodup, hvalue, hnone⟩
    exact ⟨_, _, htrail, hnodup, hvalue, hnone⟩
  · rintro ⟨trail, last, htrail, hnodup, hvalue, hnone⟩
    exact .found htrail hnodup hvalue hnone

theorem resolveChain_eq_cycle_iff {chain : List String} :
    resolveChain root start = .error (.cycle chain) ↔
      ∃ trail last, chain = trail ++ [last] ∧ IsTrail root start chain ∧ trail.Nodup
        ∧ last ∈ trail := by
  rw [resolveChain_eq_iff]
  constructor
  · intro h
    cases h with
    | broken _ _ herror => exact absurd herror resolve_ne_cycle
    | repeated htrail hnodup hmem => exact ⟨_, _, rfl, htrail, hnodup, hmem⟩
  · rintro ⟨trail, last, rfl, htrail, hnodup, hmem⟩
    exact .repeated htrail hnodup hmem

theorem resolveChain_eq_error_iff {error : ReferenceError} :
    (resolveChain root start = .error error ∧ ∀ chain, error ≠ .cycle chain) ↔
      ∃ trail last, IsTrail root start (trail ++ [last]) ∧ resolve root last = .error error := by
  rw [resolveChain_eq_iff]
  constructor
  · rintro ⟨h, hne⟩
    cases h with
    | broken htrail _ herror => exact ⟨_, _, htrail, herror⟩
    | repeated => exact absurd rfl (hne _)
  · rintro ⟨trail, last, htrail, herror⟩
    refine ⟨.broken htrail (htrail.nodup_of_stop (referenceBehind?_of_error herror)) herror, ?_⟩
    rintro chain rfl
    exact resolve_ne_cycle herror

/-- Without repetition the sequence can be walked up to a reference that is followed by none or by
one that was met before. -/
theorem exists_last_turn (root : Json) (start : String) :
    ∃ trail last, IsTrail root start (trail ++ [last]) ∧ (trail ++ [last]).Nodup
      ∧ ∀ next, referenceBehind? root last = some next → next ∈ trail ++ [last] := by
  have h : Ends root start (resolveChain root start) := resolveChain_eq_iff.mp rfl
  generalize resolveChain root start = result at h
  cases h with
  | found htrail hnodup hvalue hnone =>
      refine ⟨_, _, htrail, hnodup, fun next hnext => ?_⟩
      rw [referenceBehind?_of_content hvalue hnone] at hnext
      cases hnext
  | broken htrail hnodup herror =>
      refine ⟨_, _, htrail, hnodup, fun next hnext => ?_⟩
      rw [referenceBehind?_of_error herror] at hnext
      cases hnext
  | @repeated trail last htrail hnodup hmem =>
      obtain ⟨before, used, rfl⟩ : ∃ before used, trail = used ++ [before] :=
        ⟨_, _, (List.dropLast_append_getLast (List.ne_nil_of_mem hmem)).symm⟩
      refine ⟨used, before, htrail.init, hnodup, fun next hnext => ?_⟩
      obtain rfl : last = next := Option.some.inj (htrail.behind.symm.trans hnext)
      exact hmem

/-- **Following a chain of references ends, and its result says exactly how.**  It takes no more
turns than the tree has texts under keys.  The result is the value behind the sequence that comes to
one without a reference; or it is a cycle, whose references are the sequence up to its first
repetition; or it is the error of the first reference that leads nowhere. -/
theorem resolveChain_exact (root : Json) (start : String) :
    (∃ trail last, trail.length ≤ (references root).toFinset.card
        ∧ IsTrail root start (trail ++ [last])
        ∧ resolveChain root start = follow root trail last
        ∧ ∀ next, referenceBehind? root last = some next → next ∈ trail ++ [last])
      ∧ (∀ value, resolveChain root start = .ok value ↔
        ∃ trail last, IsTrail root start (trail ++ [last]) ∧ (trail ++ [last]).Nodup
          ∧ resolve root last = .ok value ∧ referenceIn? value = none)
      ∧ (∀ chain, resolveChain root start = .error (.cycle chain) ↔
        ∃ trail last, chain = trail ++ [last] ∧ IsTrail root start chain
          ∧ (∀ reference ∈ trail, ∃ value, resolve root reference = .ok value)
          ∧ trail.Nodup ∧ last ∈ trail)
      ∧ ∀ error, (resolveChain root start = .error error ∧ ∀ chain, error ≠ .cycle chain) ↔
        ∃ trail last, IsTrail root start (trail ++ [last]) ∧ resolve root last = .error error := by
  refine ⟨?turns, fun _ => resolveChain_eq_ok_iff, fun chain => ?cycle,
    fun _ => resolveChain_eq_error_iff⟩
  case turns =>
    obtain ⟨trail, last, htrail, hnodup, hlast⟩ := exists_last_turn root start
    exact ⟨trail, last, htrail.length_le hnodup, htrail, resolveChain_eq_follow htrail hnodup, hlast⟩
  case cycle =>
    rw [resolveChain_eq_cycle_iff]
    constructor
    · rintro ⟨trail, last, rfl, htrail, hnodup, hmem⟩
      exact ⟨trail, last, rfl, htrail, htrail.resolves, hnodup, hmem⟩
    · rintro ⟨trail, last, hchain, htrail, -, hnodup, hmem⟩
      exact ⟨trail, last, hchain, htrail, hnodup, hmem⟩

/-- A chain that ends at a reference that is no text; a cycle that spells the same position of an
array in two ways before it is noticed; and a chain that leads nowhere. -/
theorem resolveChain_exact_chains :
    let root : Json := .object [
      ("a", .array [.object [("$ref", .string "#/a/00")]]),
      ("b", .object [("more", .null), ("$ref", .string "#/c~1d")]),
      ("c/d", .object [("$ref", .null)]),
      ("e", .object [("$ref", .string "#/f")])]
    (IsTrail root "#/b" ["#/b", "#/c~1d"]
        ∧ resolveChain root "#/b" = .ok (.object [("$ref", .null)]))
      ∧ (IsTrail root "#/a/0" ["#/a/0", "#/a/00", "#/a/00"]
        ∧ resolveChain root "#/a/0" = .error (.cycle ["#/a/0", "#/a/00", "#/a/00"]))
      ∧ IsTrail root "#/e" ["#/e", "#/f"]
      ∧ resolveChain root "#/e" = .error (.missing "#/f" "f") := by
  intro root
  have hends : IsTrail root "#/b" ["#/b", "#/c~1d"] := by
    unfold IsTrail
    decide +kernel
  have hcycle : IsTrail root "#/a/0" ["#/a/0", "#/a/00", "#/a/00"] := by
    unfold IsTrail
    decide +kernel
  have hmissing : IsTrail root "#/e" ["#/e", "#/f"] := by
    unfold IsTrail
    decide +kernel
  refine ⟨⟨hends, ?_⟩, ⟨hcycle, ?_⟩, hmissing, ?_⟩
  · exact ((resolveChain_exact root "#/b").2.1 _).mpr
      ⟨["#/b"], "#/c~1d", hends, by decide, by decide +kernel, by decide +kernel⟩
  · exact ((resolveChain_exact root "#/a/0").2.2.1 _).mpr
      ⟨["#/a/0", "#/a/00"], "#/a/00", rfl, hcycle, hcycle.resolves, by decide, by decide⟩
  · exact (((resolveChain_exact root "#/e").2.2.2 _).mpr
      ⟨["#/e"], "#/f", hmissing, by decide +kernel⟩).1

end ApiTypings.Json
