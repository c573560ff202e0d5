/-
Names with their arguments, and objects with their members.

A name extends as far as its characters do, and neither the brackets behind it nor the marks
behind a key are such characters.  A key may begin like the word `readonly`, but the blank
behind that word is no part of a key.
-/
import Mathlib
import ApiTypings.Proofs.Names
import ApiTypings.Proofs.TypeText.Words

namespace ApiTypings.TypeExpr

open Text (isNameChar)

/-! ### Names -/

/-- The arguments of a name with their brackets. -/
def argumentsText : List TypeExpr → List Char
  | [] => []
  | arg :: args =>
    '<' :: (operandText .union arg ++ (Text.behind [',', ' '] (operandText .union) args ++ ['>']))

theorem operandText_named (name : String) (args : List TypeExpr) :
    operandText .tight (named name args) = name.toList ++ argumentsText args := by
  rw [operandText_of_le (by simp [binding, Binding.rank])]
  cases args with
  | nil => simp [render, argumentsText]
  | cons arg args => simp [render, argumentsText, renderArguments_eq, operandText_union]

theorem not_nameChar_arguments (args : List TypeExpr) {x : List Char} (hx : EndsPiece x) :
    ∀ c ∈ (argumentsText args ++ x).head?, isNameChar c = false := by
  cases args with
  | nil =>
      intro c hc
      have hclosers : ∀ c ∈ [',', '>', '\x7d', ' ', ';', ')', '['], isNameChar c = false := by
        intro c hc
        fin_cases hc <;> rfl
      exact hclosers c (hx c hc)
  | cons arg args =>
      intro c hc
      obtain rfl : '<' = c := by simpa [argumentsText] using hc
      rfl

theorem arguments_unique {args others : List TypeExpr} (ih : ∀ arg ∈ args, Reads .union arg)
    (hothers : ∀ other ∈ others, Everywhere Legible other) {x y : List Char} (hx : EndsPiece x)
    (hy : EndsPiece y) (h : argumentsText args ++ x = argumentsText others ++ y) :
    args.map nullAsKeyword = others.map nullAsKeyword ∧ x = y := by
  have hopen : ∀ {r w : List Char}, EndsPiece r → r ≠ '<' :: w := by
    rintro r w hr rfl
    simp [EndsPiece] at hr
  cases args with
  | nil =>
      cases others with
      | nil => exact ⟨rfl, h⟩
      | cons other others => exact absurd h (by rw [argumentsText, argumentsText]; exact hopen hx)
  | cons arg args =>
      cases others with
      | nil => exact absurd h.symm (by rw [argumentsText, argumentsText]; exact hopen hy)
      | cons other others =>
          simp only [argumentsText, List.cons_append, List.append_assoc, List.nil_append,
            List.cons.injEq, true_and] at h
          obtain ⟨hmap, hxy⟩ := Text.separated_unique nullAsKeyword
            (Ends .union) (fun r => ∃ w, r = '>' :: w)
            (fun r => ends_cons (by simp) _) (by rintro _ ⟨w, rfl⟩; exact ends_cons (by simp) w)
            (by rintro _ w ⟨v, rfl⟩; simp)
            (fun c hc d hd x y hx hy hcd => ih c hc d x y (hothers d hd) hx hy hcd)
            ⟨x, rfl⟩ ⟨y, rfl⟩ h
          exact ⟨hmap, (List.cons.inj hxy).2⟩

theorem reads_named {name : String} {args : List TypeExpr} (hname : IsTypeName name)
    (ih : ∀ arg ∈ args, Reads .union arg) : ReadsPiece (named name args) := by
  intro b x y hb hnb hx hy h
  have hlead := lead_eq (a := named name args) hname hb.self (by simp) hnb h
  cases b with
  | named other others =>
      rw [operandText_named, operandText_named, List.append_assoc, List.append_assoc] at h
      obtain ⟨hnames, hrest⟩ := Text.span_unique (Text.isName_of_isIdentifier hname.1)
        (Text.isName_of_isIdentifier hb.self.1) (not_nameChar_arguments args hx)
        (not_nameChar_arguments others hy) h
      obtain ⟨hargs, hxy⟩ := arguments_unique ih (fun other hother => hb.child hother) hx hy hrest
      rw [nullAsKeyword, nullAsKeyword, nullAsKeywordAll_eq, nullAsKeywordAll_eq, hargs,
        String.toList_inj.mp hnames]
      exact ⟨rfl, hxy⟩
  | keyword k => cases k <;> simp [lead] at hlead
  | literal value =>
      have hmem := value.lead_mem
      rw [show value.lead = _ from hlead.symm] at hmem
      simp [lead] at hmem
  | array item => exact absurd rfl (hnb item)
  | _ => simp [lead] at hlead

/-! ### Members -/

/-- What stands between the key of a member and its type. -/
def marks (isOptional isMethod : Bool) : List Char :=
  (if isOptional then ['?'] else []) ++ (if isMethod then ['(', ')'] else []) ++ [':', ' ']

def readonlyMark (isReadonly : Bool) : List Char :=
  if isReadonly then ['r', 'e', 'a', 'd', 'o', 'n', 'l', 'y', ' '] else []

theorem memberText_eq (member : Member) :
    memberText member = readonlyMark member.isReadonly ++ ((memberKey member.name).toList
      ++ (marks member.isOptional member.isMethod ++ operandText .union member.type)) := by
  obtain ⟨name, type, isOptional, isReadonly, isMethod⟩ := member
  rw [operandText_union]
  cases isOptional <;> cases isReadonly <;> cases isMethod <;>
    simp [memberText, renderMember, readonlyMark, marks]

/-- A text that begins like the marks behind a key. -/
def EndsKey (rest : List Char) : Prop := ∀ c ∈ rest.head?, c ∈ ['?', '(', ':']

theorem endsKey_marks (isOptional isMethod : Bool) (rest : List Char) :
    EndsKey (marks isOptional isMethod ++ rest) := by
  cases isOptional <;> cases isMethod <;> simp [EndsKey, marks]

theorem EndsKey.not_nameChar {rest : List Char} (h : EndsKey rest) :
    ∀ c ∈ rest.head?, isNameChar c = false := by
  intro c hc
  have hmarks : ∀ c ∈ ['?', '(', ':'], isNameChar c = false := by
    intro c hc
    fin_cases hc <;> rfl
  exact hmarks c (h c hc)

theorem memberKey_cases (name : String) :
    (Text.isIdentifier name = true ∧ memberKey name = name)
      ∨ memberKey name = Json.quote name := by
  unfold memberKey
  split
  · rename_i h
    exact Or.inl ⟨h, rfl⟩
  · exact Or.inr rfl

/-- An identifier does not begin with a quote. -/
theorem identifier_ne_quoted {name text : String} (h : Text.isIdentifier name = true)
    {x y : List Char} : name.toList ++ x ≠ (Json.quote text).toList ++ y := by
  intro heq
  rw [Json.toList_quote] at heq
  cases hname : name.toList with
  | nil => simp [Text.isIdentifier, hname] at h
  | cons c rest =>
      have hc := Text.isName_of_isIdentifier h c (by simp [hname])
      rw [hname, List.cons_append, List.cons_append, List.cons.injEq] at heq
      rw [heq.1] at hc
      cases hc

theorem memberKey_unique {a b : String} {x y : List Char} (hx : EndsKey x) (hy : EndsKey y)
    (h : (memberKey a).toList ++ x = (memberKey b).toList ++ y) : a = b ∧ x = y := by
  rcases memberKey_cases a with ⟨ha, hkeyA⟩ | hkeyA <;>
    rcases memberKey_cases b with ⟨hb, hkeyB⟩ | hkeyB <;> rw [hkeyA, hkeyB] at h
  · obtain ⟨hab, hxy⟩ := Text.span_unique (Text.isName_of_isIdentifier ha)
      (Text.isName_of_isIdentifier hb) hx.not_nameChar hy.not_nameChar h
    exact ⟨String.toList_inj.mp hab, hxy⟩
  · exact absurd h (identifier_ne_quoted ha)
  · exact absurd h.symm (identifier_ne_quoted hb)
  · exact Json.quote_unique h

/-- No key looks like the mark of a read-only member, not even the key `readonly`. -/
theorem memberKey_ne_readonly (name : String) {x y : List Char} (hx : EndsKey x) :
    (memberKey name).toList ++ x ≠ readonlyMark true ++ y := by
  intro h
  rcases memberKey_cases name with ⟨hname, hkey⟩ | hkey
  · rw [hkey] at h
    have hsplit : readonlyMark true ++ y
        = ['r', 'e', 'a', 'd', 'o', 'n', 'l', 'y'] ++ ' ' :: y := rfl
    rw [hsplit] at h
    obtain ⟨-, hrest⟩ := Text.span_unique (Text.isName_of_isIdentifier hname)
      (by intro c hc; fin_cases hc <;> rfl) hx.not_nameChar (by simp [isNameChar]; decide) h
    rw [hrest] at hx
    simp [EndsKey] at hx
  · rw [hkey, Json.toList_quote] at h
    simp [readonlyMark] at h

theorem marks_unique {o m o' m' : Bool} {x y : List Char}
    (h : marks o m ++ x = marks o' m' ++ y) : o = o' ∧ m = m' ∧ x = y := by
  cases o <;> cases m <;> cases o' <;> cases m' <;> simp_all [marks]

theorem member_unique {a b : Member} (ih : Reads .union a.type)
    (hb : Everywhere Legible b.type) {x y : List Char} (hx : Ends .union x) (hy : Ends .union y)
    (h : memberText a ++ x = memberText b ++ y) : a.nullAsKeyword = b.nullAsKeyword ∧ x = y := by
  simp only [memberText_eq, List.append_assoc] at h
  have hreadonly : a.isReadonly = b.isReadonly := by
    cases ha : a.isReadonly <;> cases hb : b.isReadonly <;> rw [ha, hb] at h
    · exact absurd h (memberKey_ne_readonly _ (endsKey_marks _ _ _))
    · exact absurd h.symm (memberKey_ne_readonly _ (endsKey_marks _ _ _))
  rw [hreadonly] at h
  obtain ⟨hname, hrest⟩ := memberKey_unique (endsKey_marks _ _ _) (endsKey_marks _ _ _)
    (List.append_cancel_left h)
  obtain ⟨hoptional, hmethod, hrest⟩ := marks_unique hrest
  obtain ⟨htype, hxy⟩ := ih b.type x y hb hx hy hrest
  refine ⟨?_, hxy⟩
  cases a
  cases b
  simp_all [Member.nullAsKeyword]

theorem operandText_object (member : Member) (members : List Member) :
    operandText .tight (object (member :: members)) = '\x7b' :: ' ' :: (memberText member
      ++ (Text.behind [';', ' '] memberText members ++ [' ', '\x7d'])) := by
  simp [operandText, parenthesize, binding, render, renderMembers_eq, memberText]

theorem reads_object {members : List Member} (hne : members ≠ [])
    (ih : ∀ member ∈ members, Reads .union member.type) : ReadsPiece (object members) := by
  intro b x y hb hnb hx hy h
  have hlead := lead_eq (a := object members) hne hb.self (by simp) hnb h
  cases b with
  | object others =>
      obtain ⟨first, rest, rfl⟩ := List.exists_cons_of_ne_nil hne
      obtain ⟨other, others, rfl⟩ := List.exists_cons_of_ne_nil (show others ≠ [] from hb.self)
      simp only [operandText_object, List.cons_append, List.append_assoc, List.cons.injEq,
        true_and, List.nil_append] at h
      obtain ⟨hmap, hxy⟩ := Text.separated_unique Member.nullAsKeyword
        (Ends .union) (fun r => ∃ w, r = ' ' :: '\x7d' :: w)
        (fun r => ends_cons (by simp) _) (by rintro _ ⟨w, rfl⟩; exact ends_closing w)
        (by rintro _ w ⟨v, rfl⟩; simp)
        (fun c hc d hd x y hx hy hcd => member_unique (ih c hc)
          (hb.child (List.mem_map.mpr ⟨d, hd, rfl⟩)) hx hy hcd) ⟨x, rfl⟩ ⟨y, rfl⟩ h
      rw [nullAsKeyword, nullAsKeyword, nullAsKeywordMembers_eq, nullAsKeywordMembers_eq, hmap]
      exact ⟨rfl, by simpa using hxy⟩
  | keyword k => cases k <;> simp [lead] at hlead
  | literal value =>
      obtain ⟨fields, rfl⟩ := exists_fields_of_lead hlead.symm
      exact absurd h (object_text_ne hne)
  | array item => exact absurd rfl (hnb item)
  | _ => simp [lead] at hlead

end ApiTypings.TypeExpr
