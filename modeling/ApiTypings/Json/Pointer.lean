/-
References into a JSON tree.

A reference is `#/` followed by segments between slashes, in which `~1` stands for a slash
and `~0` for a tilde.  A walk follows object keys and array positions, and fails at the
first segment that cannot be followed.

The value at the end of a walk may itself be a reference.  `resolveChain` goes on from
there and refuses a reference that it has used already.  It ends because each step uses
up one of the finitely many reference strings that occur in the tree.
-/
import ApiTypings.Json.Basic
import ApiTypings.Text.Blank

namespace ApiTypings

/-- Why a reference leads nowhere. -/
inductive ReferenceError
  /-- the reference does not begin with `#/` -/
  | unsupported (reference : String)
  /-- the object lacks the key, or the array the position -/
  | missing (reference segment : String)
  /-- there is a null where `segment` should be looked up -/
  | nullish (reference segment : String)
  /-- there is a scalar where `segment` should be looked up -/
  | nonTraversable (reference segment : String)
  /-- the last reference of the chain occurs in it before -/
  | cycle (chain : List String)
  deriving DecidableEq

namespace ReferenceError

def message : ReferenceError → String
  | unsupported reference =>
    "only references which start with \x60#/\x60 are supported, got \x60" ++ reference ++ "\x60"
  | missing reference segment =>
    "reference \x60" ++ reference ++ "\x60 does not exist (missing \x60" ++ segment ++ "\x60)"
  | nullish reference segment =>
    "reference \x60" ++ reference ++ "\x60 has hit a nullish part before \x60" ++ segment ++ "\x60"
  | nonTraversable reference segment =>
    "reference \x60" ++ reference ++ "\x60 has hit a non-traversable part before \x60" ++ segment
      ++ "\x60"
  | cycle chain => "reference cycle detected: " ++ " -> ".intercalate chain

end ReferenceError

namespace Json

/-- A segment with its escapes replaced by the characters they stand for. -/
def unescapeSegment : List Char → List Char
  | '~' :: '1' :: rest => '/' :: unescapeSegment rest
  | '~' :: '0' :: rest => '~' :: unescapeSegment rest
  | c :: rest => c :: unescapeSegment rest
  | [] => []

/-- The position that a segment names: digits, perhaps behind a plus sign. -/
def arrayIndex? (segment : String) : Option Nat :=
  let digits := match segment.toList with
    | '+' :: rest => rest
    | all => all
  if digits ≠ [] ∧ digits.all Char.isDigit then
    some (digits.foldl (fun n c => 10 * n + (c.toNat - 48)) 0)
  else none

/-- One step of a walk: the child that `segment` names. -/
def child (reference : String) (value : Json) (segment : String) : Except ReferenceError Json :=
  match value with
  | null => .error (.nullish reference segment)
  | object fields =>
    match lookup segment fields with
    | some value => .ok value
    | none => .error (.missing reference segment)
  | array items =>
    match (arrayIndex? segment).bind (items[·]?) with
    | some value => .ok value
    | none => .error (.missing reference segment)
  | _ => .error (.nonTraversable reference segment)

/-- The value at the end of a list of segments. -/
def walk (reference : String) : Json → List String → Except ReferenceError Json
  | value, [] => .ok value
  | value, segment :: segments =>
    match child reference value segment with
    | .ok value => walk reference value segments
    | .error error => .error error

/-- The segments of a reference, unescaped. -/
def segments? (reference : String) : Option (List String) :=
  match Text.afterPrefix? ['#', '/'] reference.toList with
  | none => none
  | some pointer =>
    some ((Text.splitOnChar '/' pointer).map fun piece => String.ofList (unescapeSegment piece))

/-- The value that a reference points at. -/
def resolve (root : Json) (reference : String) : Except ReferenceError Json :=
  match segments? reference with
  | none => .error (.unsupported reference)
  | some segments => walk reference root segments

/-- The reference that a value holds instead of content. -/
def referenceIn? (value : Json) : Option String := (value.field? "$ref").bind string?

mutual
/-- All reference strings in a tree. -/
def references : Json → List String
  | object fields => referencesInFields fields
  | array items => referencesInItems items
  | _ => []

def referencesInItems : List Json → List String
  | [] => []
  | item :: rest => references item ++ referencesInItems rest

def referencesInFields : List (String × Json) → List String
  | [] => []
  | (_, value) :: rest => (string? value).toList ++ references value ++ referencesInFields rest
end

theorem mem_references_of_lookup {key : String} {fields : List (String × Json)} {value : Json}
    (h : lookup key fields = some value) :
    (∀ r ∈ (string? value).toList, r ∈ referencesInFields fields)
      ∧ ∀ r ∈ references value, r ∈ referencesInFields fields := by
  induction fields with
  | nil => simp [lookup] at h
  | cons field rest ih =>
    obtain ⟨k, v⟩ := field
    unfold lookup at h
    split at h
    · cases h; simp +contextual [referencesInFields]
    · have := ih h
      exact ⟨fun r hr => by simp [referencesInFields, this.1 r hr],
        fun r hr => by simp [referencesInFields, this.2 r hr]⟩

theorem mem_references_of_getElem? {items : List Json} {i : Nat} {value : Json}
    (h : items[i]? = some value) {r : String} (hr : r ∈ references value) :
    r ∈ referencesInItems items := by
  induction items generalizing i with
  | nil => simp at h
  | cons item rest ih =>
    cases i with
    | zero => simp at h; subst h; simp [referencesInItems, hr]
    | succ i => simp [referencesInItems, ih (by simpa using h)]

theorem references_of_child {reference segment : String} {value found : Json}
    (h : child reference value segment = .ok found) :
    ∀ r ∈ references found, r ∈ references value := by
  intro r hr
  unfold child at h
  split at h
  · cases h
  · split at h
    · cases h; exact (mem_references_of_lookup (by assumption)).2 r hr
    · cases h
  · split at h
    next he =>
      cases h
      obtain ⟨i, -, hi⟩ := Option.bind_eq_some_iff.mp he
      exact mem_references_of_getElem? hi hr
    · cases h
  · cases h

theorem references_of_walk {reference : String} {segments : List String} {value found : Json}
    (h : walk reference value segments = .ok found) :
    ∀ r ∈ references found, r ∈ references value := by
  induction segments generalizing value with
  | nil => cases h; exact fun _ hr => hr
  | cons segment segments ih =>
    unfold walk at h
    split at h
    next hc => exact fun r hr => references_of_child hc r (ih h r hr)
    · cases h

theorem references_of_resolve {root found : Json} {reference : String}
    (h : resolve root reference = .ok found) : ∀ r ∈ references found, r ∈ references root := by
  unfold resolve at h
  split at h
  · cases h
  · exact references_of_walk h

theorem referenceIn?_mem {value : Json} {r : String} (h : referenceIn? value = some r) :
    r ∈ references value := by
  obtain ⟨target, hf, hs⟩ := Option.bind_eq_some_iff.mp h
  cases value <;> simp only [field?, reduceCtorEq] at hf
  exact (mem_references_of_lookup hf).1 r (by simp [hs])

/-- How many reference strings of a tree have not been used. -/
def unused (root : Json) (used : List String) : Nat :=
  (references root).countP fun r => !used.contains r

theorem unused_lt {root : Json} {used : List String} {next : String}
    (hm : next ∈ references root) (hn : next ∉ used) :
    unused root (used ++ [next]) < unused root used := by
  have step (refs : List String) :
      (refs.countP fun r => !(used ++ [next]).contains r) + refs.count next
        = refs.countP fun r => !used.contains r := by
    induction refs with
    | nil => rfl
    | cons r refs ih =>
      rw [List.countP_cons, List.countP_cons, List.count_cons, ← ih]
      by_cases hr : r = next
      · subst hr; simp [hn]; omega
      · have : (r == next) = false := by simpa using hr
        by_cases hu : r ∈ used
        · simp [this, hu]
        · simp [this, hu, hr]
          omega
  have := step (references root)
  have := List.count_pos_iff.mpr hm
  unfold unused
  omega

set_option linter.unusedVariables false in
/-- Follows references from `reference` on, which the `used` ones led to. -/
def follow (root : Json) (used : List String) (reference : String) : Except ReferenceError Json :=
  match h : resolve root reference with
  | .error error => .error error
  | .ok value =>
    match hn : referenceIn? value with
    | none => .ok value
    | some next =>
      if hu : next ∈ used ++ [reference] then .error (.cycle (used ++ [reference] ++ [next]))
      else follow root (used ++ [reference]) next
termination_by unused root (used ++ [reference])
decreasing_by exact unused_lt (references_of_resolve h _ (referenceIn?_mem hn)) hu

/-- One step along a chain of references. -/
theorem follow_eq (root : Json) (used : List String) (reference : String) :
    follow root used reference =
      match resolve root reference with
      | .error error => .error error
      | .ok value =>
        match referenceIn? value with
        | none => .ok value
        | some next =>
          if next ∈ used ++ [reference] then .error (.cycle (used ++ [reference] ++ [next]))
          else follow root (used ++ [reference]) next := by
  rw [follow]
  split
  next error herror => rw [herror]
  next value hvalue =>
    rw [hvalue]
    dsimp only
    split
    next hnone => rw [hnone]
    next next hnext =>
      rw [hnext]
      rfl

/-- The value at the end of a chain of references; it holds no reference itself. -/
def resolveChain (root : Json) (reference : String) : Except ReferenceError Json :=
  follow root [] reference

end Json
end ApiTypings
