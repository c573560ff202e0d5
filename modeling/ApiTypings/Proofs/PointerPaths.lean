/-
Resolving a reference is following a path.

A path is a list of steps, each of them a key or a position.  A segment of a reference names the
step with its text as the key, and, if it is a number, also the step to that position; which of
them is meant depends on what the walk has come to, and an object or array has a part for at most
one.  So what a reference resolves to is the node at the end of a path that its segments name, and
where there is none, the walk stops at a first segment that names no part of what it has come to.

Two laws follow from this.  The reference that is written for a path leads to its node, since
unescaping undoes escaping and an escaped key has no slash in it.  And a slash in a reference may be
read as the place where a second reference begins, since a text is cut at slashes before anything
else.
-/
import Mathlib
import ApiTypings.Proofs.ComponentReferences
import ApiTypings.Proofs.DecimalText
import ApiTypings.Proofs.ResponseKeys

namespace ApiTypings

/-- The same cause at the same segment, told of another reference. -/
def ReferenceError.within (reference : String) : ReferenceError → ReferenceError
  | unsupported _ => unsupported reference
  | missing _ segment => missing reference segment
  | nullish _ segment => nullish reference segment
  | nonTraversable _ segment => nonTraversable reference segment
  | cycle chain => cycle chain

namespace Text

theorem afterPrefix?_eq_some_iff {start text rest : List Char} :
    afterPrefix? start text = some rest ↔ text = start ++ rest := by
  induction start generalizing text with
  | nil => simp [afterPrefix?]
  | cons c start ih =>
      cases text with
      | nil => simp [afterPrefix?]
      | cons d text =>
          rw [afterPrefix?]
          by_cases hc : c = d
          · rw [if_pos hc, ih, hc]
            simp
          · rw [if_neg hc]
            simp [Ne.symm hc]

end Text

namespace Decimal

/-- Digits are zeros and behind them the number as it is written. -/
theorem exists_zeros {digits : List Char} (hne : digits ≠ [])
    (hdigits : ∀ c ∈ digits, c.isDigit = true) :
    ∃ zeros, digits = List.replicate zeros '0' ++ Nat.toDigits 10 (digitsValue digits) := by
  induction digits using List.reverseRecOn with
  | nil => exact absurd rfl hne
  | append_singleton digits c ih =>
      have hc : c.isDigit = true := hdigits c (by simp)
      have hrange := StatusCode.isDigit_iff.mp hc
      have hlast : Nat.toDigits 10 (c.toNat - 48) = [c] := by
        rw [Nat.toDigits_of_lt_base (by omega), StatusCode.digitChar_sub hc]
      have hvalue : digitsValue (digits ++ [c]) = 10 * digitsValue digits + (c.toNat - 48) := by
        simp [digitsValue]
      rw [hvalue]
      by_cases hnil : digits = []
      · subst hnil
        refine ⟨0, ?_⟩
        have hzero : digitsValue [] = 0 := rfl
        rw [hzero, Nat.mul_zero, Nat.zero_add, hlast]
        rfl
      · obtain ⟨zeros, hfront⟩ := ih hnil fun d hd => hdigits d (List.mem_append_left _ hd)
        rcases Nat.eq_zero_or_pos (digitsValue digits) with hzero | hpos
        · refine ⟨zeros + 1, ?_⟩
          rw [hzero] at hfront
          rw [hzero, Nat.mul_zero, Nat.zero_add, hlast, List.replicate_succ']
          nth_rewrite 1 [hfront]
          rfl
        · refine ⟨zeros, ?_⟩
          nth_rewrite 1 [hfront]
          rw [← Nat.toDigits_append_toDigits (by decide) hpos (by omega), hlast, List.append_assoc]

end Decimal

namespace Json

/-! ### Paths -/

/-- A step from a value to one of its parts. -/
inductive Step
  | key (key : String)
  | index (position : Nat)

/-- The part of a value that a step leads to. -/
def part? : Json → Step → Option Json
  | object fields, .key key => lookup key fields
  | array items, .index position => items[position]?
  | _, _ => none

/-- The node at the end of a path. -/
def node? : Json → List Step → Option Json
  | value, [] => some value
  | value, step :: path => (part? value step).bind fun part => node? part path

/-- A step as it is written in a reference. -/
def Step.segment : Step → String
  | .key name => String.ofList (escapeSegment name.toList)
  | .index position => toString position

/-- The reference that is written for a path. -/
def pointer (path : List Step) : String := "#/" ++ "/".intercalate (path.map Step.segment)

/-- The segments behind the `#/` of a reference. -/
def segmentsOf (text : String) : List String :=
  (Text.splitOnChar '/' text.toList).map fun piece => String.ofList (unescapeSegment piece)

/-- The segment names the step. A position may be written with a plus sign and with zeros in
front. -/
inductive Names : String → Step → Prop
  | key (key : String) : Names key (.key key)
  | index {sign : List Char} (hsign : sign = [] ∨ sign = ['+']) (zeros position : Nat) :
    Names (String.ofList (sign ++ (List.replicate zeros '0' ++ Nat.toDigits 10 position)))
      (.index position)

/-- What a walk reports that finds no part for a segment. -/
def obstacle (reference segment : String) : Json → ReferenceError
  | null => .nullish reference segment
  | object _ => .missing reference segment
  | array _ => .missing reference segment
  | _ => .nonTraversable reference segment

/-! ### One step -/

/-- The characters behind a plus sign, or all of them. -/
def withoutPlus : List Char → List Char
  | '+' :: rest => rest
  | all => all

theorem arrayIndex?_eq (segment : String) :
    arrayIndex? segment
      = if withoutPlus segment.toList ≠ [] ∧ (withoutPlus segment.toList).all Char.isDigit then
          some (Decimal.digitsValue (withoutPlus segment.toList))
        else none := rfl

theorem withoutPlus_append {sign digits : List Char} (hsign : sign = [] ∨ sign = ['+'])
    (hdigits : ∀ c ∈ digits, c.isDigit = true) : withoutPlus (sign ++ digits) = digits := by
  rcases hsign with rfl | rfl
  · rw [List.nil_append, withoutPlus.eq_def]
    split
    · exact absurd (hdigits '+' List.mem_cons_self) (by decide)
    · rfl
  · rfl

theorem exists_sign (text : List Char) :
    ∃ sign, (sign = [] ∨ sign = ['+']) ∧ text = sign ++ withoutPlus text := by
  rw [withoutPlus.eq_def]
  split
  · exact ⟨['+'], .inr rfl, rfl⟩
  · exact ⟨[], .inl rfl, rfl⟩

theorem arrayIndex?_eq_some_iff {segment : String} {position : Nat} :
    arrayIndex? segment = some position ↔ Names segment (.index position) := by
  rw [arrayIndex?_eq]
  constructor
  · intro h
    obtain ⟨sign, hsign, htext⟩ := exists_sign segment.toList
    by_cases hdigits : withoutPlus segment.toList ≠ []
        ∧ (withoutPlus segment.toList).all Char.isDigit = true
    · obtain ⟨zeros, hzeros⟩ := Decimal.exists_zeros hdigits.1 (List.all_eq_true.mp hdigits.2)
      rw [if_pos hdigits, Option.some.injEq] at h
      rw [hzeros, h] at htext
      rw [← String.ofList_toList (s := segment), htext]
      exact .index hsign zeros position
    · rw [if_neg hdigits] at h
      cases h
  · intro h
    cases h with
    | index hsign zeros position =>
        have hdigits : ∀ c ∈ List.replicate zeros '0' ++ Nat.toDigits 10 position,
            c.isDigit = true := by
          intro c hc
          rcases List.mem_append.mp hc with hc | hc
          · exact Decimal.isDigit_of_mem_zeros hc
          · exact Decimal.isDigit_of_mem_toDigits hc
        rw [String.toList_ofList, withoutPlus_append hsign hdigits,
          if_pos ⟨by simp [Nat.toDigits_ne_nil], List.all_eq_true.mpr hdigits⟩,
          Decimal.digitsValue_zeros_append, Decimal.digitsValue_toDigits]

theorem child_of_names {reference segment : String} {value part : Json} {step : Step}
    (hnames : Names segment step) (hpart : part? value step = some part) :
    child reference value segment = .ok part := by
  cases step with
  | key key =>
      cases hnames
      cases value with
      | object fields =>
          have hlookup : lookup segment fields = some part := hpart
          rw [child, hlookup]
      | _ => cases hpart
  | index position =>
      cases value with
      | array items =>
          have hitem : (arrayIndex? segment).bind (items[·]?) = some part := by
            rw [arrayIndex?_eq_some_iff.mpr hnames]
            exact hpart
          rw [child, hitem]
      | _ => cases hpart

theorem child_of_none {segment : String} {value : Json} (reference : String)
    (h : ∀ step, Names segment step → part? value step = none) :
    child reference value segment = .error (obstacle reference segment value) := by
  cases value with
  | object fields =>
      have hlookup : lookup segment fields = none := h _ (.key segment)
      rw [child, hlookup]
      rfl
  | array items =>
      have hitem : (arrayIndex? segment).bind (items[·]?) = none := by
        cases hindex : arrayIndex? segment with
        | none => rfl
        | some position => exact h _ (arrayIndex?_eq_some_iff.mp hindex)
      rw [child, hitem]
      rfl
  | _ => rfl

/-- A segment names a part of a value, or it names none. -/
theorem exists_part_or_none (value : Json) (segment : String) :
    (∃ step part, Names segment step ∧ part? value step = some part)
      ∨ ∀ step, Names segment step → part? value step = none := by
  by_cases h : ∃ step part, Names segment step ∧ part? value step = some part
  · exact .inl h
  · refine .inr fun step hnames => ?_
    cases hpart : part? value step with
    | none => rfl
    | some part => exact absurd ⟨step, part, hnames, hpart⟩ h

/-! ### A walk -/

theorem walk_append (reference : String) (value : Json) (first second : List String) :
    walk reference value (first ++ second)
      = (walk reference value first).bind fun node => walk reference node second := by
  induction first generalizing value with
  | nil => rfl
  | cons segment first ih =>
      rw [List.cons_append, walk, walk]
      cases child reference value segment with
      | error error => rfl
      | ok part => exact ih part

/-- The reference that a walk is made for only stands in its error. -/
theorem walk_within (reference other : String) (value : Json) (segments : List String) :
    (walk other value segments).mapError (.within reference) = walk reference value segments := by
  induction segments generalizing value with
  | nil => rfl
  | cons segment segments ih =>
      rw [walk, walk]
      rcases exists_part_or_none value segment with ⟨step, part, hnames, hpart⟩ | hnone
      · rw [child_of_names hnames hpart, child_of_names hnames hpart]
        exact ih part
      · rw [child_of_none reference hnone, child_of_none other hnone]
        cases value <;> rfl

/-- How a walk ends: at the node of a path that the segments name, or in front of the first segment
that names no part. -/
inductive WalkEnds (reference : String) (value : Json) (segments : List String) :
    Except ReferenceError Json → Prop
  | found {path : List Step} {node : Json} (hnames : List.Forall₂ Names segments path)
      (hnode : node? value path = some node) : WalkEnds reference value segments (.ok node)
  | stopped {before after : List String} {segment : String} {path : List Step} {node : Json}
      (hsplit : segments = before ++ segment :: after) (hnames : List.Forall₂ Names before path)
      (hnode : node? value path = some node)
      (hnone : ∀ step, Names segment step → part? node step = none) :
      WalkEnds reference value segments (.error (obstacle reference segment node))

theorem walk_of_names {reference : String} {value node : Json} {segments : List String}
    {path : List Step} (hnames : List.Forall₂ Names segments path)
    (hnode : node? value path = some node) : walk reference value segments = .ok node := by
  induction hnames generalizing value with
  | nil =>
      cases hnode
      rfl
  | cons hstep _ ih =>
      obtain ⟨part, hpart, hrest⟩ := Option.bind_eq_some_iff.mp hnode
      rw [walk, child_of_names hstep hpart]
      exact ih hrest

/-- The first step of a walk that goes on. -/
theorem WalkEnds.cons {reference segment : String} {value part : Json} {segments : List String}
    {step : Step} {result : Except ReferenceError Json} (hstep : Names segment step)
    (hpart : part? value step = some part) (h : WalkEnds reference part segments result) :
    WalkEnds reference value (segment :: segments) result := by
  have hnode {path : List Step} {node : Json} (hrest : node? part path = some node) :
      node? value (step :: path) = some node := by
    rw [node?, hpart]
    exact hrest
  cases h with
  | found hnames hrest => exact .found (.cons hstep hnames) (hnode hrest)
  | stopped hsplit hnames hrest hnone =>
      exact .stopped (by rw [hsplit]; rfl) (.cons hstep hnames) (hnode hrest) hnone

theorem walkEnds_walk (reference : String) (value : Json) (segments : List String) :
    WalkEnds reference value segments (walk reference value segments) := by
  induction segments generalizing value with
  | nil => exact .found .nil rfl
  | cons segment segments ih =>
      rw [walk]
      rcases exists_part_or_none value segment with ⟨step, part, hnames, hpart⟩ | hnone
      · rw [child_of_names hnames hpart]
        exact (ih part).cons hnames hpart
      · rw [child_of_none reference hnone]
        exact .stopped (List.nil_append _).symm .nil rfl hnone

theorem walk_eq_iff {reference : String} {value : Json} {segments : List String}
    {result : Except ReferenceError Json} :
    walk reference value segments = result ↔ WalkEnds reference value segments result := by
  refine ⟨fun h => h ▸ walkEnds_walk reference value segments, fun h => ?_⟩
  cases h with
  | found hnames hnode => exact walk_of_names hnames hnode
  | stopped hsplit hnames hnode hnone =>
      rw [hsplit, walk_append, walk_of_names hnames hnode]
      show walk reference _ _ = _
      rw [walk, child_of_none reference hnone]

/-! ### References -/

theorem segments?_eq_some_iff {reference : String} {segments : List String} :
    segments? reference = some segments
      ↔ ∃ text, reference = "#/" ++ text ∧ segments = segmentsOf text := by
  have hstart (text : String) (rest : List Char) :
      Text.afterPrefix? ['#', '/'] text.toList = some rest
        ↔ text = "#/" ++ String.ofList rest := by
    rw [Text.afterPrefix?_eq_some_iff, ← String.toList_inj, String.toList_append,
      String.toList_ofList (l := rest)]
    rfl
  rw [segments?]
  constructor
  · intro h
    split at h
    · cases h
    · rename_i rest hrest
      refine ⟨String.ofList rest, (hstart _ _).mp hrest, ?_⟩
      rw [segmentsOf, String.toList_ofList]
      exact (Option.some.inj h).symm
  · rintro ⟨text, rfl, rfl⟩
    have hrest := (hstart ("#/" ++ text) text.toList).mpr (by rw [String.ofList_toList])
    rw [hrest]
    rfl

theorem resolve_hash (root : Json) (text : String) :
    resolve root ("#/" ++ text) = walk ("#/" ++ text) root (segmentsOf text) := by
  rw [resolve, segments?_eq_some_iff.mpr ⟨text, rfl, rfl⟩]

theorem resolve_of_no_hash {reference : String} (root : Json)
    (h : ∀ text, reference ≠ "#/" ++ text) :
    resolve root reference = .error (.unsupported reference) := by
  rw [resolve]
  split
  · rfl
  · rename_i segments hsegments
    obtain ⟨text, htext, -⟩ := segments?_eq_some_iff.mp hsegments
    exact absurd htext (h text)

theorem segmentsOf_slash (first second : String) :
    segmentsOf (first ++ "/" ++ second) = segmentsOf first ++ segmentsOf second := by
  have htext : (first ++ "/" ++ second).toList = first.toList ++ '/' :: second.toList := by
    rw [String.toList_append, String.toList_append, List.append_assoc]
    rfl
  rw [segmentsOf, htext, Text.splitOnChar_at, List.map_append]
  rfl

/-- **A slash in a reference is where a second one may begin.** -/
theorem resolve_slash (root : Json) (first second : String) :
    resolve root ("#/" ++ first ++ "/" ++ second)
      = ((resolve root ("#/" ++ first)).bind fun node => resolve node ("#/" ++ second)).mapError
        (.within ("#/" ++ first ++ "/" ++ second)) := by
  have hreference : "#/" ++ first ++ "/" ++ second = "#/" ++ (first ++ "/" ++ second) := by
    rw [String.append_assoc, String.append_assoc, String.append_assoc]
  rw [hreference, resolve_hash, resolve_hash, segmentsOf_slash, walk_append,
    ← walk_within _ ("#/" ++ first)]
  cases walk ("#/" ++ first) root (segmentsOf first) with
  | error error => rfl
  | ok node =>
      show walk _ node (segmentsOf second) = (resolve node ("#/" ++ second)).mapError _
      rw [resolve_hash, walk_within]

/-! ### Written paths -/

theorem unescapeSegment_of_not_mem {text : List Char} (h : '~' ∉ text) :
    unescapeSegment text = text := by
  induction text with
  | nil => rfl
  | cons c text ih =>
      obtain ⟨hc, htext⟩ := not_or.mp (mt List.mem_cons.mpr h)
      rw [unescapeSegment_cons (Ne.symm hc), ih htext]

/-- No digit is one of the marks of a reference. -/
theorem not_mem_toString {c : Char} (hc : c.isDigit = false) (n : Nat) :
    c ∉ (toString n).toList := by
  intro hmem
  rw [Decimal.toList_toString] at hmem
  rw [Decimal.isDigit_of_mem_toDigits hmem] at hc
  cases hc

/-- A written step is one segment, and it names the step. -/
theorem segmentsOf_segment (step : Step) :
    ∃ segment, segmentsOf step.segment = [segment] ∧ Names segment step := by
  cases step with
  | key key =>
      refine ⟨key, ?_, .key key⟩
      rw [segmentsOf, Step.segment, String.toList_ofList,
        Text.splitOnChar_of_not_mem (slash_not_mem_escapeSegment _), List.map_singleton,
        unescapeSegment_escapeSegment, String.ofList_toList]
  | index position =>
      refine ⟨toString position, ?_, ?_⟩
      · rw [segmentsOf, Step.segment,
          Text.splitOnChar_of_not_mem (not_mem_toString (by decide) position), List.map_singleton,
          unescapeSegment_of_not_mem (not_mem_toString (by decide) position), String.ofList_toList]
      · rw [← String.ofList_toList (s := toString position), Decimal.toList_toString]
        exact .index (.inl rfl) 0 position

theorem names_intercalate {path : List Step} (hne : path ≠ []) :
    List.Forall₂ Names (segmentsOf ("/".intercalate (path.map Step.segment))) path := by
  induction path with
  | nil => exact absurd rfl hne
  | cons step path ih =>
      obtain ⟨segment, hsegment, hnames⟩ := segmentsOf_segment step
      cases path with
      | nil =>
          rw [List.map_singleton, String.intercalate_singleton, hsegment]
          exact .cons hnames .nil
      | cons next path =>
          rw [List.map_cons, List.map_cons, String.intercalate_cons_cons, segmentsOf_slash,
            hsegment]
          exact .cons hnames (ih (List.cons_ne_nil _ _))

/-- **The reference that is written for a path leads to its node.** -/
theorem resolve_pointer {root node : Json} {path : List Step} (hne : path ≠ [])
    (hnode : node? root path = some node) : resolve root (pointer path) = .ok node := by
  rw [pointer, resolve_hash]
  exact walk_of_names (names_intercalate hne) hnode

/-! ### What a reference comes to -/

theorem resolve_eq_ok_iff {root node : Json} {reference : String} :
    resolve root reference = .ok node
      ↔ ∃ text path, reference = "#/" ++ text ∧ List.Forall₂ Names (segmentsOf text) path
        ∧ node? root path = some node := by
  constructor
  · intro h
    by_cases hhash : ∃ text, reference = "#/" ++ text
    · obtain ⟨text, rfl⟩ := hhash
      rw [resolve_hash, walk_eq_iff] at h
      cases h with
      | found hnames hnode => exact ⟨text, _, rfl, hnames, hnode⟩
    · rw [resolve_of_no_hash root (not_exists.mp hhash)] at h
      cases h
  · rintro ⟨text, path, rfl, hnames, hnode⟩
    rw [resolve_hash]
    exact walk_of_names hnames hnode

theorem resolve_eq_error_iff {root : Json} {reference : String} {error : ReferenceError} :
    resolve root reference = .error error
      ↔ (∀ text, reference ≠ "#/" ++ text) ∧ error = .unsupported reference
        ∨ ∃ text before segment after path node, reference = "#/" ++ text
          ∧ segmentsOf text = before ++ segment :: after ∧ List.Forall₂ Names before path
          ∧ node? root path = some node ∧ (∀ step, Names segment step → part? node step = none)
          ∧ error = obstacle reference segment node := by
  constructor
  · intro h
    by_cases hhash : ∃ text, reference = "#/" ++ text
    · obtain ⟨text, rfl⟩ := hhash
      rw [resolve_hash, walk_eq_iff] at h
      cases h with
      | stopped hsplit hnames hnode hnone =>
          exact .inr ⟨text, _, _, _, _, _, rfl, hsplit, hnames, hnode, hnone, rfl⟩
    · have hno := not_exists.mp hhash
      rw [resolve_of_no_hash root hno] at h
      cases h
      exact .inl ⟨hno, rfl⟩
  · rintro (⟨hno, rfl⟩ | ⟨text, before, segment, after, path, node, rfl, hsplit, hnames, hnode,
      hnone, rfl⟩)
    · exact resolve_of_no_hash root hno
    · rw [resolve_hash, walk_eq_iff]
      exact .stopped hsplit hnames hnode hnone

/-- **Resolving is following a path.**  The reference written for a path leads to its node.  A slash
may be read as the beginning of a second reference, with the same result or an error of the same
kind at the same segment.  A reference resolves to the node of a path that its segments name, a null
like any other; and it fails in one way, at the first segment that names no part of what the walk
has come to, or because it does not begin with `#/`. -/
theorem resolve_exact (root : Json) :
    (∀ path node, path ≠ [] → node? root path = some node → resolve root (pointer path) = .ok node)
      ∧ (∀ first second, resolve root ("#/" ++ first ++ "/" ++ second)
        = ((resolve root ("#/" ++ first)).bind fun node =>
            resolve node ("#/" ++ second)).mapError (.within ("#/" ++ first ++ "/" ++ second)))
      ∧ (∀ reference node, resolve root reference = .ok node
        ↔ ∃ text path, reference = "#/" ++ text ∧ List.Forall₂ Names (segmentsOf text) path
          ∧ node? root path = some node)
      ∧ ∀ reference error, resolve root reference = .error error
        ↔ (∀ text, reference ≠ "#/" ++ text) ∧ error = .unsupported reference
          ∨ ∃ text before segment after path node, reference = "#/" ++ text
            ∧ segmentsOf text = before ++ segment :: after ∧ List.Forall₂ Names before path
            ∧ node? root path = some node ∧ (∀ step, Names segment step → part? node step = none)
            ∧ error = obstacle reference segment node :=
  ⟨fun _ _ => resolve_pointer, resolve_slash root, fun _ _ => resolve_eq_ok_iff,
    fun _ _ => resolve_eq_error_iff⟩

/-- An array under a key that looks like an escape, and a null under the empty key at its end. -/
theorem resolve_exact_escaped :
    let root : Json := .object [("a/~1", .array [.null, .object [("", .null)]])]
    let path : List Step := [.key "a/~1", .index 1, .key ""]
    (path ≠ [] ∧ node? root path = some .null) ∧ pointer path = "#/a~1~01/1/"
      ∧ resolve root (pointer path) = .ok .null :=
  ⟨⟨List.cons_ne_nil _ _, by decide⟩, by decide,
    (resolve_exact _).1 _ _ (List.cons_ne_nil _ _) (by decide)⟩

end Json
end ApiTypings
