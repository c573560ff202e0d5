/-
How the text of a type expression is read.

The printer has one rule for parentheses, and everything else shows where it begins and
ends.  So the text is read level by level: a type is its alternatives between bars, an
alternative is its conjuncts between ampersands, a conjunct is something in one piece
with pairs of brackets behind it.  `Ends` says what may follow on each level, and
`Reads` that a text, followed by such an end, fixes the type and where it stops.

The literal null and the keyword null are written alike, so a type is fixed up to
`nullAsKeyword` only.
-/
import Mathlib
import ApiTypings.Proofs.JsonText
import ApiTypings.Proofs.TypeStructure
import ApiTypings.TypeExpr.Printer

namespace ApiTypings

/-! ### What is printed unambiguously -/

namespace TypeExpr

/-- An ASCII identifier that begins with an upper-case letter. -/
def IsTypeName (name : String) : Prop :=
  Text.isIdentifier name = true ∧ ∀ c ∈ name.toList.head?, Text.isUpper c = true

/-- What a type has to look like for its text to be unambiguous, itself and not inside. -/
def Legible : TypeExpr → Prop
  | keyword _ => True
  | literal _ => True
  | named name _ => IsTypeName name
  | template parts => .text "" ∉ parts ∧ TemplatePart.SeparateTexts parts
  | array _ => True
  | object members => members ≠ []
  | union members => 2 ≤ members.length
  | intersection members => 2 ≤ members.length

mutual
/-- The type with the keyword null wherever it has the literal null. -/
def nullAsKeyword : TypeExpr → TypeExpr
  | keyword k => keyword k
  | literal .null => keyword .null
  | literal value => literal value
  | named name args => named name (nullAsKeywordAll args)
  | template parts => template (nullAsKeywordParts parts)
  | array item => array (nullAsKeyword item)
  | object members => object (nullAsKeywordMembers members)
  | union members => union (nullAsKeywordAll members)
  | intersection members => intersection (nullAsKeywordAll members)

def nullAsKeywordAll : List TypeExpr → List TypeExpr
  | [] => []
  | type :: types => nullAsKeyword type :: nullAsKeywordAll types

def nullAsKeywordParts : List TemplatePart → List TemplatePart
  | [] => []
  | .text text :: parts => .text text :: nullAsKeywordParts parts
  | .type type :: parts => .type (nullAsKeyword type) :: nullAsKeywordParts parts

def nullAsKeywordMembers : List Member → List Member
  | [] => []
  | ⟨name, type, isOptional, isReadonly, isMethod⟩ :: members =>
    ⟨name, nullAsKeyword type, isOptional, isReadonly, isMethod⟩ :: nullAsKeywordMembers members
end

end TypeExpr

/-- The part with the keyword null wherever it has the literal null. -/
def TemplatePart.nullAsKeyword : TemplatePart → TemplatePart
  | text value => text value
  | type inner => type inner.nullAsKeyword

/-- The member with the keyword null wherever it has the literal null. -/
def Member.nullAsKeyword (member : Member) : Member :=
  { member with type := member.type.nullAsKeyword }

namespace TypeExpr

theorem nullAsKeywordAll_eq (types : List TypeExpr) :
    nullAsKeywordAll types = types.map nullAsKeyword := by
  induction types with
  | nil => rfl
  | cons type types ih => rw [nullAsKeywordAll, ih, List.map_cons]

theorem nullAsKeywordParts_eq (parts : List TemplatePart) :
    nullAsKeywordParts parts = parts.map TemplatePart.nullAsKeyword := by
  induction parts with
  | nil => rfl
  | cons part parts ih =>
      cases part with
      | text value => rw [nullAsKeywordParts, ih, List.map_cons, TemplatePart.nullAsKeyword]
      | type inner => rw [nullAsKeywordParts, ih, List.map_cons, TemplatePart.nullAsKeyword]

theorem nullAsKeywordMembers_eq (members : List Member) :
    nullAsKeywordMembers members = members.map Member.nullAsKeyword := by
  induction members with
  | nil => rfl
  | cons member members ih =>
      obtain ⟨name, type, isOptional, isReadonly, isMethod⟩ := member
      rw [nullAsKeywordMembers, ih, List.map_cons, Member.nullAsKeyword]

/-! ### Texts on a level

The definitions of the printer say how each constructor is written.  What is needed of
them is the list form of each: first item, then items behind separators.
-/

/-- The text of a type where what binds looser than `least` stands in parentheses. -/
def operandText (least : Binding) (type : TypeExpr) : List Char :=
  (parenthesize least type type.render).toList

/-- The text of a member. -/
def memberText (member : Member) : List Char := (renderMember member).toList

theorem renderOperands_eq (separator : String) (least : Binding) (types : List TypeExpr) :
    (renderOperands separator least types).toList
      = Text.behind separator.toList (operandText least) types := by
  induction types with
  | nil => rfl
  | cons type types ih => simp [renderOperands, ih, operandText]

theorem renderArguments_eq (types : List TypeExpr) :
    (renderArguments types).toList = Text.behind [',', ' '] (operandText .union) types := by
  induction types with
  | nil => rfl
  | cons type types ih => simp [renderArguments, ih, operandText, parenthesize, Binding.rank]

theorem renderMembers_eq (members : List Member) :
    (renderMembers members).toList = Text.behind [';', ' '] memberText members := by
  induction members with
  | nil => rfl
  | cons member members ih => simp [renderMembers, ih, memberText]

theorem operandText_union (type : TypeExpr) : operandText .union type = type.render.toList := by
  simp [operandText, parenthesize, Binding.rank]

/-- A text in parentheses. -/
def inParens (text : List Char) : List Char := '(' :: (text ++ [')'])

theorem operandText_of_lt {least : Binding} {type : TypeExpr}
    (h : type.binding.rank < least.rank) :
    operandText least type = inParens type.render.toList := by
  simp [operandText, parenthesize, h, inParens]

theorem operandText_of_le {least : Binding} {type : TypeExpr}
    (h : least.rank ≤ type.binding.rank) : operandText least type = type.render.toList := by
  simp [operandText, parenthesize, Nat.not_lt.mpr h]

/-! ### Where a type may end -/

/-- What may follow something in one piece. -/
def EndsPiece (rest : List Char) : Prop :=
  ∀ c ∈ rest.head?, c ∈ [',', '>', '\x7d', ' ', ';', ')', '[']

/-- What may follow something with its brackets. -/
def EndsTight (rest : List Char) : Prop := ∀ c ∈ rest.head?, c ∈ [',', '>', '\x7d', ' ', ';', ')']

/-- What may follow a type that stands where `least` is asked for: nothing that would go on with
an operand of that level. -/
def Ends : Binding → List Char → Prop
  | .tight, rest => EndsTight rest
  | .intersection, rest => EndsTight rest ∧ ∀ r, rest ≠ [' ', '&', ' '] ++ r
  | .union, rest =>
    (EndsTight rest ∧ ∀ r, rest ≠ [' ', '&', ' '] ++ r) ∧ ∀ r, rest ≠ [' ', '|', ' '] ++ r

theorem EndsTight.piece {rest : List Char} (h : EndsTight rest) : EndsPiece rest := by
  intro c hc
  have := h c hc
  simp only [List.mem_cons, List.not_mem_nil, or_false] at this ⊢
  tauto

/-- Closing characters end a type on every level. -/
theorem ends_cons {least : Binding} {c : Char} (hc : c ∈ [',', '>', '\x7d', ';', ')'])
    (rest : List Char) : Ends least (c :: rest) := by
  have hspace : c ≠ ' ' := by
    rintro rfl
    simp at hc
  have htight : EndsTight (c :: rest) := by
    intro d hd
    obtain rfl : c = d := by simpa using hd
    simp only [List.mem_cons, List.not_mem_nil, or_false] at hc ⊢
    tauto
  cases least with
  | union => exact ⟨⟨htight, by simp [hspace]⟩, by simp [hspace]⟩
  | intersection => exact ⟨htight, by simp [hspace]⟩
  | tight => exact htight

/-- The end of an object type ends the type of its last member. -/
theorem ends_closing (rest : List Char) : Ends .union (' ' :: '\x7d' :: rest) := by
  refine ⟨⟨?_, by simp⟩, by simp⟩
  intro c hc
  simp at hc
  simp [← hc]

/-- The text of a type where `least` is asked for fixes it, up to nulls. -/
def Reads (least : Binding) (a : TypeExpr) : Prop :=
  ∀ (b : TypeExpr) (x y : List Char), Everywhere Legible b → Ends least x → Ends least y →
    operandText least a ++ x = operandText least b ++ y →
    a.nullAsKeyword = b.nullAsKeyword ∧ x = y

/-- The text of something in one piece fixes it, up to nulls. -/
def ReadsPiece (a : TypeExpr) : Prop :=
  ∀ (b : TypeExpr) (x y : List Char), Everywhere Legible b → (∀ item, b ≠ array item) →
    EndsPiece x → EndsPiece y → operandText .tight a ++ x = operandText .tight b ++ y →
    a.nullAsKeyword = b.nullAsKeyword ∧ x = y

/-! ### Brackets -/

/-- The innermost item of an array of arrays. -/
def element : TypeExpr → TypeExpr
  | array item => element item
  | type => type

/-- How many arrays stand around the innermost item. -/
def dimensions : TypeExpr → Nat
  | array item => dimensions item + 1
  | _ => 0

def brackets : Nat → List Char
  | 0 => []
  | n + 1 => '[' :: ']' :: brackets n

theorem brackets_append (n : Nat) : brackets n ++ ['[', ']'] = brackets (n + 1) := by
  induction n with
  | zero => rfl
  | succ n ih =>
      rw [brackets, List.cons_append, List.cons_append, ih]
      rfl

theorem element_ne_array (a item : TypeExpr) : a.element ≠ array item := by
  fun_induction element a with
  | case1 inner ih => exact ih
  | case2 type hne => exact hne item

theorem sizeOf_element_le (a : TypeExpr) : sizeOf a.element ≤ sizeOf a := by
  fun_induction element a with
  | case1 inner ih =>
      simp only [array.sizeOf_spec]
      omega
  | case2 => exact Nat.le_refl _

theorem everywhere_element {P : TypeExpr → Prop} {a : TypeExpr} (h : Everywhere P a) :
    Everywhere P a.element := by
  fun_induction element a with
  | case1 inner ih => exact ih (h.child (by simp [children]))
  | case2 => exact h

theorem render_array (item : TypeExpr) :
    operandText .tight (array item) = operandText .tight item ++ ['[', ']'] := by
  simp [operandText, parenthesize, binding, Binding.rank, render]

theorem operandText_element (a : TypeExpr) :
    operandText .tight a = operandText .tight a.element ++ brackets a.dimensions := by
  fun_induction element a with
  | case1 inner ih =>
      rw [render_array, ih, List.append_assoc, brackets_append, dimensions]
  | case2 type hne =>
      have hzero : type.dimensions = 0 := by
        unfold dimensions
        split
        · exact absurd rfl (hne _)
        · rfl
      rw [hzero, brackets, List.append_nil]

theorem nullAsKeyword_element (a : TypeExpr) :
    a.nullAsKeyword = array^[a.dimensions] a.element.nullAsKeyword := by
  fun_induction element a with
  | case1 inner ih => rw [nullAsKeyword, ih, dimensions, Function.iterate_succ_apply']
  | case2 type hne =>
      have hzero : type.dimensions = 0 := by
        unfold dimensions
        split
        · exact absurd rfl (hne _)
        · rfl
      rw [hzero, Function.iterate_zero_apply]

theorem endsPiece_brackets (n : Nat) {x : List Char} (hx : EndsTight x) :
    EndsPiece (brackets n ++ x) := by
  cases n with
  | zero => exact hx.piece
  | succ n =>
      intro c hc
      simp [brackets] at hc
      simp [← hc]

/-- Behind the brackets there are no more brackets, so their number is visible. -/
theorem brackets_unique (n m : Nat) {x y : List Char} (hx : EndsTight x) (hy : EndsTight y)
    (h : brackets n ++ x = brackets m ++ y) : n = m ∧ x = y := by
  have hopen : ∀ {r : List Char} {k : Nat} {w : List Char}, EndsTight r →
      r ≠ brackets (k + 1) ++ w := by
    rintro r k w hr rfl
    simp [EndsTight, brackets] at hr
  induction n generalizing m with
  | zero =>
      cases m with
      | zero => exact ⟨rfl, h⟩
      | succ m => exact absurd h (hopen hx)
  | succ n ih =>
      cases m with
      | zero => exact absurd h.symm (hopen hy)
      | succ m =>
          obtain ⟨rfl, hxy⟩ := ih m (by simpa [brackets] using h)
          exact ⟨rfl, hxy⟩

/-- **Arrays are read through their innermost item.** -/
theorem reads_tight {a : TypeExpr} (h : ReadsPiece a.element) : Reads .tight a := by
  intro b x y hb hx hy htext
  rw [operandText_element a, operandText_element b, List.append_assoc, List.append_assoc] at htext
  obtain ⟨helement, hrest⟩ := h b.element _ _ (everywhere_element hb) (element_ne_array b)
    (endsPiece_brackets _ hx) (endsPiece_brackets _ hy) htext
  obtain ⟨hdims, hxy⟩ := brackets_unique _ _ hx hy hrest
  exact ⟨by rw [nullAsKeyword_element a, nullAsKeyword_element b, helement, hdims], hxy⟩

/-! ### Operands -/

@[simp] theorem nullAsKeyword_union (members : List TypeExpr) :
    (union members).nullAsKeyword = union (members.map nullAsKeyword) := by
  rw [nullAsKeyword, nullAsKeywordAll_eq]

@[simp] theorem nullAsKeyword_intersection (members : List TypeExpr) :
    (intersection members).nullAsKeyword = intersection (members.map nullAsKeyword) := by
  rw [nullAsKeyword, nullAsKeywordAll_eq]

/-- A type as the conjuncts between ampersands. -/
theorem operandText_intersection {a : TypeExpr} (ha : Legible a) :
    ∃ first rest, a.conjuncts = first :: rest ∧ operandText .intersection a
      = operandText .tight first ++ Text.behind [' ', '&', ' '] (operandText .tight) rest := by
  cases a with
  | intersection members =>
      cases members with
      | nil => simp [Legible] at ha
      | cons first rest =>
          refine ⟨first, rest, rfl, ?_⟩
          rw [operandText_of_le (by simp [binding, Binding.rank])]
          simp [render, renderOperands_eq, operandText]
  | union members =>
      refine ⟨_, [], rfl, ?_⟩
      rw [operandText_of_lt (by simp [binding, Binding.rank]),
        operandText_of_lt (by simp [binding, Binding.rank])]
      simp
  | _ =>
      refine ⟨_, [], rfl, ?_⟩
      rw [operandText_of_le (by simp [binding, Binding.rank]),
        operandText_of_le (by simp [binding, Binding.rank])]
      simp

/-- A type as the alternatives between bars. -/
theorem operandText_alternatives {a : TypeExpr} (ha : Legible a) :
    ∃ first rest, a.alternatives = first :: rest ∧ operandText .union a
      = operandText .intersection first
        ++ Text.behind [' ', '|', ' '] (operandText .intersection) rest := by
  cases a with
  | union members =>
      cases members with
      | nil => simp [Legible] at ha
      | cons first rest =>
          refine ⟨first, rest, rfl, ?_⟩
          rw [operandText_union]
          simp [render, renderOperands_eq, operandText]
  | _ =>
      refine ⟨_, [], rfl, ?_⟩
      rw [operandText_union, operandText_of_le (by simp [binding, Binding.rank])]
      simp

theorem nullAsKeyword_holding (combination : Combination) (members : List TypeExpr) :
    (combination.holding members).nullAsKeyword
      = combination.holding (members.map nullAsKeyword) := by
  cases combination with
  | union => exact nullAsKeyword_union members
  | intersection => exact nullAsKeyword_intersection members

theorem legible_holding_iff (combination : Combination) {members : List TypeExpr} :
    Legible (combination.holding members) ↔ 2 ≤ members.length := by
  cases combination <;> rfl

theorem eq_of_operands (combination : Combination) {a b : TypeExpr} (ha : Legible a)
    (hb : Legible b)
    (h : (combination.operands a).map nullAsKeyword = (combination.operands b).map nullAsKeyword) :
    a.nullAsKeyword = b.nullAsKeyword := by
  have hlength := congrArg List.length h
  rw [List.length_map, List.length_map] at hlength
  -- several operands are held on both sides or on none
  rcases combination.holding_or_ne a with ⟨members, rfl⟩ | ⟨-, hsingle⟩ <;>
    rcases combination.holding_or_ne b with ⟨others, rfl⟩ | ⟨-, hother⟩
  · rw [combination.operands_holding, combination.operands_holding] at h
    rw [nullAsKeyword_holding, nullAsKeyword_holding, h]
  · have := (legible_holding_iff combination).mp ha
    rw [combination.operands_holding, hother, List.length_singleton] at hlength
    omega
  · have := (legible_holding_iff combination).mp hb
    rw [combination.operands_holding, hsingle, List.length_singleton] at hlength
    omega
  · rw [hsingle, hother] at h
    simpa using h

/-- A type is read on a level when its operands are read on the next. -/
theorem reads_operands {outer inner : Binding} {parts : TypeExpr → List TypeExpr}
    {separator : List Char}
    (htext : ∀ a, Legible a → ∃ first rest, parts a = first :: rest ∧ operandText outer a
      = operandText inner first ++ Text.behind separator (operandText inner) rest)
    (hparts : ∀ {a part}, Everywhere Legible a → part ∈ parts a → Everywhere Legible part)
    (hkey : ∀ {a b}, Legible a → Legible b →
      (parts a).map nullAsKeyword = (parts b).map nullAsKeyword →
      a.nullAsKeyword = b.nullAsKeyword)
    (hsep : ∀ r, Ends inner (separator ++ r)) (hend : ∀ r, Ends outer r → Ends inner r)
    (hne : ∀ r w, Ends outer r → r ≠ separator ++ w) {a : TypeExpr} (ha : Everywhere Legible a)
    (h : ∀ part ∈ parts a, Reads inner part) : Reads outer a := by
  intro b x y hb hx hy heq
  obtain ⟨first, rest, hpartsA, htextA⟩ := htext a ha.self
  obtain ⟨other, others, hpartsB, htextB⟩ := htext b hb.self
  rw [htextA, htextB, List.append_assoc, List.append_assoc] at heq
  obtain ⟨hmap, hxy⟩ := Text.separated_unique nullAsKeyword (Ends inner) (Ends outer) hsep hend hne
    (fun c hc d hd x y hx hy hcd => h c (by rw [hpartsA]; exact hc) d x y
      (hparts hb (by rw [hpartsB]; exact hd)) hx hy hcd) hx hy heq
  exact ⟨hkey ha.self hb.self (by rw [hpartsA, hpartsB, hmap]), hxy⟩

theorem endsTight_space (rest : List Char) : EndsTight (' ' :: rest) := by
  intro c hc
  simp at hc
  simp [← hc]

/-- **Intersections are read through their conjuncts.** -/
theorem reads_intersection {a : TypeExpr} (ha : Everywhere Legible a)
    (h : ∀ part ∈ a.conjuncts, Reads .tight part) : Reads .intersection a :=
  reads_operands (fun _ => operandText_intersection)
    Combination.intersection.everywhere_operand (eq_of_operands .intersection)
    (fun _ => endsTight_space _) (fun _ hr => hr.1) (fun _ w hr => hr.2 w) ha h

/-- **Unions are read through their alternatives.** -/
theorem reads_union {a : TypeExpr} (ha : Everywhere Legible a)
    (h : ∀ part ∈ a.alternatives, Reads .intersection part) : Reads .union a :=
  reads_operands (fun _ => operandText_alternatives)
    Combination.union.everywhere_operand (eq_of_operands .union)
    (fun _ => ⟨endsTight_space _, by simp⟩) (fun _ hr => hr.1) (fun _ w hr => hr.2 w) ha h

end TypeExpr
end ApiTypings
