/-
Which bare keywords a choice keeps apart from its literals.

In a union a bare `string` swallows the texts that are listed beside it, and a bare `number` the
numbers.  A choice of several members therefore wraps these keywords.  It looks at the members one
by one, before their types are flattened into the union, and so it sees only a keyword that is the
whole type of a member.  Where a member has a union of its own, because it is nullable, lists
several types or is a choice itself, the keyword goes into the outer union as it is.

That is the only way in.  A keyword swallows literals of the choice exactly if some member has it
inside a union, and some member has such a literal.
-/
import Mathlib
import ApiTypings.Proofs.Choices
import ApiTypings.Proofs.FlatTypes

namespace ApiTypings.TypeExpr

open OpenApi

/-- The bare keyword is among the parts of a union, beside a literal that is one of its values. -/
def Absorbs (k : Keyword) (parts : List TypeExpr) : Prop :=
  keyword k ∈ parts ∧ ∃ value, k.Holds value ∧ literal value ∈ parts

/-- Some member has a union with the bare keyword in it, and some member has a literal that is one
of the keyword's values. -/
structure Exposes (k : Keyword) (members : List Schema) : Prop where
  bare : ∃ member ∈ members, ∃ parts, lowered false member = some (union parts)
    ∧ keyword k ∈ parts
  literal : ∃ value, k.Holds value ∧ ∃ member ∈ members, ∃ type ∈ lowered false member,
    literal value ∈ type.alternatives

variable {coerce : Bool} {k : Keyword} {value : Json} {type part : TypeExpr}
  {types : List TypeExpr} {members : List Schema} {node : SchemaObject}

/-! ### What a wrapped type has -/

theorem literal_mem_alternatives_widen :
    literal value ∈ type.widen.alternatives ↔ literal value ∈ type.alternatives := by
  unfold widen
  split <;> simp [alternatives]

/-- A wrapped type has the bare keyword only inside a union. -/
theorem keyword_mem_alternatives_widen (hk : k = .string ∨ k = .number) :
    keyword k ∈ type.widen.alternatives ↔ ∃ parts, type = union parts ∧ keyword k ∈ parts := by
  unfold widen
  split
  · simp [alternatives]
  · simp [alternatives]
  · rename_i hstring hnumber
    cases type with
    | union parts => simp [alternatives]
    | keyword found =>
        have hne : k ≠ found := by
          rintro rfl
          rcases hk with rfl | rfl
          · exact hstring rfl
          · exact hnumber rfl
        simp [alternatives, hne]
    | _ => simp [alternatives]

/-- The types of the members, each wrapped if there are several members. -/
theorem mem_oneOfTypes :
    type ∈ oneOfTypes coerce members ↔ ∃ member ∈ members, ∃ inner ∈ lowered coerce member,
      (if members.length ≤ 1 then inner else inner.widen) = type := by
  unfold oneOfTypes widenAll
  rw [List.length_map]
  split <;> simp [List.mem_filterMap]

theorem flat_oneOfTypes : ∀ type ∈ oneOfTypes coerce members, Everywhere Flat type := by
  intro type htype
  obtain ⟨member, -, inner, hinner, rfl⟩ := mem_oneOfTypes.mp htype
  have hkeeps : Keeps coerce (Everywhere Flat) member := keeps_flat
  have hflat : Everywhere Flat inner := flat_of_lowered inner hinner
  split
  · exact hflat
  · exact hkeeps.widen hflat

theorem mem_alternatives_oneOfTypes :
    part ∈ (oneOfTypes coerce members).flatMap alternatives
      ↔ ∃ member ∈ members, ∃ type ∈ lowered coerce member,
        part ∈ (if members.length ≤ 1 then type else type.widen).alternatives := by
  simp only [List.mem_flatMap, mem_oneOfTypes]
  constructor
  · rintro ⟨_, ⟨member, hmember, type, htype, rfl⟩, hpart⟩
    exact ⟨member, hmember, type, htype, hpart⟩
  · rintro ⟨member, hmember, type, htype, hpart⟩
    exact ⟨_, ⟨member, hmember, type, htype, rfl⟩, hpart⟩

/-- A type with several alternatives is the union of them. -/
theorem exists_union_of_mem_alternatives {other : TypeExpr} (hpart : part ∈ type.alternatives)
    (hother : other ∈ type.alternatives) (hne : part ≠ other) :
    ∃ parts, type = union parts ∧ part ∈ parts := by
  by_cases hunion : ∃ parts, type = union parts
  · obtain ⟨parts, rfl⟩ := hunion
    exact ⟨parts, rfl, hpart⟩
  · rw [alternatives_of_ne_union (not_exists.mp hunion), List.mem_singleton] at hpart hother
    exact absurd (hpart.trans hother.symm) hne

/-- **The wrapped types absorb what the members expose.** A single member is not wrapped, but a type
that is the bare keyword has no literal beside it. -/
theorem absorbs_oneOfTypes_iff (hk : k = .string ∨ k = .number) :
    Absorbs k ((oneOfTypes false members).flatMap alternatives) ↔ Exposes k members := by
  unfold Absorbs
  simp only [mem_alternatives_oneOfTypes]
  by_cases hlength : members.length ≤ 1
  · have hsame : ∀ first ∈ members, ∀ second ∈ members, first = second := by
      match members, hlength with
      | [], _ => exact nofun
      | [only], _ => simp
    simp only [if_pos hlength]
    constructor
    · rintro ⟨⟨member, hmember, type, htype, hkeyword⟩, value, hvalue, other, hother, found, hfound,
        hliteral⟩
      obtain rfl := hsame member hmember other hother
      obtain rfl : type = found := Option.some.inj (htype.symm.trans hfound)
      obtain ⟨parts, rfl, hparts⟩ :=
        exists_union_of_mem_alternatives hkeyword hliteral (by simp)
      exact ⟨⟨member, hmember, parts, htype, hparts⟩, value, hvalue, member, hmember, _, htype,
        hliteral⟩
    · rintro ⟨⟨member, hmember, parts, hparts, hkeyword⟩, hliteral⟩
      exact ⟨⟨member, hmember, _, hparts, hkeyword⟩, hliteral⟩
  · simp only [if_neg hlength, keyword_mem_alternatives_widen hk, literal_mem_alternatives_widen]
    constructor
    · rintro ⟨⟨member, hmember, _, htype, parts, rfl, hkeyword⟩, hliteral⟩
      exact ⟨⟨member, hmember, parts, htype, hkeyword⟩, hliteral⟩
    · rintro ⟨⟨member, hmember, parts, hparts, hkeyword⟩, hliteral⟩
      exact ⟨⟨member, hmember, _, hparts, parts, rfl, hkeyword⟩, hliteral⟩

/-! ### The union of a choice -/

/-- The union of a list of types absorbs what the alternatives of the types do. -/
theorem absorbs_unionOf?_iff (hflat : ∀ type ∈ types, Everywhere Flat type) :
    (∃ type ∈ unionOf? types, Absorbs k type.alternatives)
      ↔ Absorbs k (types.flatMap alternatives) := by
  cases types with
  | nil =>
      constructor
      · exact fun ⟨_, htype, _⟩ => nomatch htype
      · exact fun h => nomatch h.1
  | cons first types =>
      have halternatives : (ofUnion (first :: types)).alternatives
          = (first :: types).flatMap alternatives :=
        alternatives_ofUnion (fun type htype => (hflat type htype).self) (List.cons_ne_nil _ _)
      rw [← halternatives]
      exact ⟨fun ⟨_, htype, h⟩ => Option.some.inj htype ▸ h, fun h => ⟨_, rfl, h⟩⟩

/-- A part that is written like no other type is not lost among equal texts. -/
theorem mem_distinctTexts_alternatives
    (hpart : ∀ type : TypeExpr, type.nullAsKeyword = part ↔ type = part)
    (hlegible : ∀ type ∈ types, Everywhere Legible type) :
    part ∈ (distinctTexts [] types).flatMap alternatives ↔ part ∈ types.flatMap alternatives := by
  have hnull : ∀ type : TypeExpr,
      part ∈ type.nullAsKeyword.alternatives ↔ part ∈ type.alternatives := by
    intro type
    simp only [alternatives_nullAsKeyword, List.mem_map, hpart, exists_eq_right]
  simp only [List.mem_flatMap]
  exact exists_mem_distinctTexts_iff
    (iff_of_render (P := fun type => part ∈ type.alternatives) hnull) hlegible

theorem absorbs_of_distinctTexts
    (h : Absorbs k ((distinctTexts [] types).flatMap alternatives)) :
    Absorbs k (types.flatMap alternatives) := by
  have hsubset : ∀ part ∈ (distinctTexts [] types).flatMap alternatives,
      part ∈ types.flatMap alternatives := by
    intro part hpart
    obtain ⟨type, htype, hpart⟩ := List.mem_flatMap.mp hpart
    exact List.mem_flatMap_of_mem (mem_of_mem_distinctTexts htype) hpart
  obtain ⟨hkeyword, value, hvalue, hliteral⟩ := h
  exact ⟨hsubset _ hkeyword, value, hvalue, hsubset _ hliteral⟩

theorem absorbs_distinctTexts (hk : k = .string ∨ k = .number)
    (hlegible : ∀ type ∈ types, Everywhere Legible type)
    (h : Absorbs k (types.flatMap alternatives)) :
    Absorbs k ((distinctTexts [] types).flatMap alternatives) := by
  obtain ⟨hkeyword, value, hvalue, hliteral⟩ := h
  refine ⟨?_, value, hvalue, ?_⟩
  · have hne : k ≠ .null := by rcases hk with rfl | rfl <;> decide
    exact (mem_distinctTexts_alternatives (fun _ => nullAsKeyword_eq_keyword_iff hne)
      hlegible).mpr hkeyword
  · have hne : value ≠ .null := by
      rintro rfl
      rcases hk with rfl | rfl <;> exact nomatch hvalue
    exact (mem_distinctTexts_alternatives (fun _ => nullAsKeyword_eq_literal_iff hne)
      hlegible).mpr hliteral

/-- The base of a choice absorbs what the members expose. -/
theorem absorbs_base?_iff (hk : k = .string ∨ k = .number) (hall : node.allOf = none)
    (hchoice : node.oneOf = some members ∨ node.oneOf = none ∧ node.anyOf = some members)
    (hmixed : node.oneOf = none → ∃ member ∈ members, isPlainSchema member = false) :
    ((∃ type ∈ base? false node, Absorbs k type.alternatives) → Exposes k members)
      ∧ ((node.oneOf = none → ∀ pointer, Schema.Occurs (.reference pointer) (.inline node) →
            Text.isIdentifier (referenceName pointer) = true) →
          Exposes k members → ∃ type ∈ base? false node, Absorbs k type.alternatives) := by
  rcases hchoice with hone | ⟨hone, hany⟩
  · have hbase : base? false node = unionOf? (oneOfTypes false members) := by
      simp only [base?, hall, hone]
    rw [hbase, absorbs_unionOf?_iff flat_oneOfTypes, absorbs_oneOfTypes_iff hk]
    exact ⟨id, fun _ => id⟩
  · have htypes : anyOfTypes false members = oneOfTypes false members := by
      obtain ⟨member, hmember, hplain⟩ := hmixed hone
      have hnot : members.all isPlainSchema ≠ true := by
        intro hplains
        exact absurd (List.all_eq_true.mp hplains member hmember) (by simp [hplain])
      rw [anyOfTypes, if_neg hnot]
      rfl
    have hbase : base? false node = unionOf? (distinctTexts [] (oneOfTypes false members)) := by
      simp only [base?, hall, hone, hany, htypes]
    have hflat : ∀ type ∈ distinctTexts [] (oneOfTypes false members), Everywhere Flat type :=
      fun type htype => flat_oneOfTypes type (mem_of_mem_distinctTexts htype)
    rw [hbase, absorbs_unionOf?_iff hflat, ← absorbs_oneOfTypes_iff hk]
    refine ⟨absorbs_of_distinctTexts, fun hnames => absorbs_distinctTexts hk ?_⟩
    exact htypes ▸ legible_anyOfTypes
      (fun pointer hpointer => isTypeName_referenceName (hnames hone _ hpointer)) hany

/-- The null of a nullable node is neither swallowed nor a keyword that swallows. -/
theorem absorbs_withNull_iff (hk : k = .string ∨ k = .number) {nullable : Option Bool}
    {base : Option TypeExpr} (hflat : ∀ type ∈ base, Everywhere Flat type) :
    (∃ type ∈ withNull nullable base, Absorbs k type.alternatives)
      ↔ ∃ type ∈ base, Absorbs k type.alternatives := by
  have hne : k ≠ .null := by rcases hk with rfl | rfl <;> decide
  unfold withNull
  split
  · cases base with
    | none => simp [Absorbs, null, alternatives]
    | some inner =>
        have hflat : ∀ type ∈ [inner, null], Flat type := by
          simpa [null, Flat] using (hflat inner rfl).self
        have halternatives : (ofUnion [inner, null]).alternatives
            = inner.alternatives ++ [null] := by
          rw [alternatives_ofUnion hflat (List.cons_ne_nil _ _)]
          rfl
        simp only [Option.mem_some_iff, exists_eq_left', Absorbs, halternatives]
        simp [null, hne]
  · rfl

/-- **A choice absorbs what its members expose**: a keyword swallows a literal only if some member
has the keyword inside a union of its own, and then it does, as far as equal texts stand for equal
types.  A member that is the bare keyword and nothing else never swallows anything.  The choice
itself may be nullable. -/
theorem absorbs_choice (hk : k = .string ∨ k = .number)
    (h : ({ node with nullable := none } : SchemaObject).Chooses members)
    (hmixed : node.oneOf = none → ∃ member ∈ members, isPlainSchema member = false)
    (location : String) :
    ((∃ type ∈ (Inspect.runAt location (ofSchema false (.inline node))).1,
        Absorbs k type.alternatives) → Exposes k members)
      ∧ ((node.oneOf = none → ∀ pointer, Schema.Occurs (.reference pointer) (.inline node) →
            Text.isIdentifier (referenceName pointer) = true) →
          Exposes k members →
          ∃ type ∈ (Inspect.runAt location (ofSchema false (.inline node))).1,
            Absorbs k type.alternatives) := by
  have hbase : lowered false (.inline { node with nullable := none }) = base? false node :=
    lowered_of_chooses h
  have hflat : ∀ type ∈ base? false node, Everywhere Flat type := hbase ▸ flat_of_lowered
  have hlowered : (Inspect.runAt location (ofSchema false (.inline node))).1
      = withNull node.nullable (base? false node) := by
    rw [(appends_ofSchema (.inline node)).runAt_eq]
    exact lowered_of_closed h.not h.additional
  rw [hlowered, absorbs_withNull_iff hk hflat]
  exact absorbs_base?_iff hk h.allOf h.choice hmixed

/-- A text or null beside a listed text, the whole of it nullable. -/
theorem absorbs_choice_text_or_null :
    let text : Schema := .inline { type := some (.several ["string", "null"]) }
    let word : Schema := .inline { enum := some [.string "all"] }
    let node : SchemaObject := { anyOf := some [text, word], nullable := some true }
    let lowered := (Inspect.runAt "GET /pets" (ofSchema false (.inline node))).1
    (({ node with nullable := none } : SchemaObject).Chooses [text, word]
      ∧ (node.oneOf = none → ∃ member ∈ [text, word], isPlainSchema member = false)
      ∧ (node.oneOf = none → ∀ pointer, Schema.Occurs (.reference pointer) (.inline node) →
        Text.isIdentifier (referenceName pointer) = true))
      ∧ Exposes .string [text, word]
      ∧ ∃ type ∈ lowered, Absorbs .string type.alternatives := by
  intro text word node lowered
  have hchooses : ({ node with nullable := none } : SchemaObject).Chooses [text, word] :=
    ⟨by simp, rfl, by simp [node], rfl, .inr ⟨rfl, rfl⟩⟩
  have hmixed : node.oneOf = none → ∃ member ∈ [text, word], isPlainSchema member = false :=
    fun _ => ⟨word, by simp, rfl⟩
  have hnames : node.oneOf = none → ∀ pointer, Schema.Occurs (.reference pointer) (.inline node) →
      Text.isIdentifier (referenceName pointer) = true := by
    have hclosed : Schema.Everywhere (fun schema => ∀ pointer, schema ≠ .reference pointer)
        (.inline node) := by
      refine Schema.everywhere_iff.mpr ⟨nofun, fun child hchild => ?_⟩
      rcases List.mem_pair.mp (show child ∈ [text, word] from hchild) with rfl | rfl
      · exact Schema.everywhere_iff.mpr ⟨nofun, nofun⟩
      · exact Schema.everywhere_iff.mpr ⟨nofun, nofun⟩
    exact fun _ pointer hoccurs => absurd rfl (hclosed _ hoccurs pointer)
  have hexposes : Exposes .string [text, word] :=
    ⟨⟨text, by simp, [string, null], rfl, by simp [string]⟩,
      .string "all", ⟨"all", rfl⟩, word, by simp, literal (.string "all"), rfl,
      by simp [alternatives]⟩
  exact ⟨⟨hchooses, hmixed, hnames⟩, hexposes,
    (absorbs_choice (.inl rfl) hchooses hmixed "GET /pets").2 hnames hexposes⟩

/-- The null of a nullable text, or a list of types, brings the keyword into the union. -/
theorem choice_absorbs :
    let text : Schema := .inline { type := some (.single "string"), nullable := some true }
    let word : Schema := .inline { enum := some [.string "a"] }
    let number : Schema := .inline { type := some (.several ["number", "null"]) }
    let one : Schema := .inline { enum := some [.ofNat 1] }
    (∃ type ∈ (Inspect.runAt "GET /pets"
          (ofSchema false (.inline { oneOf := some [text, word] }))).1,
        keyword .string ∈ type.alternatives ∧ literal (.string "a") ∈ type.alternatives)
      ∧ ∃ type ∈ (Inspect.runAt "GET /pets"
            (ofSchema false (.inline { oneOf := some [number, one] }))).1,
          keyword .number ∈ type.alternatives ∧ literal (.ofNat 1) ∈ type.alternatives := by
  intro text word number one
  simp only [(appends_ofSchema _).runAt_eq]
  refine ⟨⟨union [string, null, literal (.string "a")], rfl, ?_⟩,
    union [TypeExpr.number, null, literal (.ofNat 1)], rfl, ?_⟩
  · simp [alternatives, string]
  · simp [alternatives, TypeExpr.number]

end ApiTypings.TypeExpr
