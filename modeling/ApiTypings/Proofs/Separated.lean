/-
What the text of a word and the text of a list determine.

A word is fixed by its text where something follows that it has no character of.

Lists are printed as their items with a separator between them, and the items are
printed so that the text of an item, followed by something that cannot belong to it,
fixes the item and where it ends.  The same then holds of the list: behind each item
there is either a separator or the end, and the end does not begin with a separator.

Every list of the printers has this form, JSON arrays and objects as well as the
operands, arguments and members of type expressions, so the induction is done once.
-/
import Mathlib

namespace ApiTypings.Text

/-- A text of one kind of characters, followed by something of another kind, is fixed. -/
theorem span_unique {p : Char → Bool} {a b x y : List Char} (ha : ∀ c ∈ a, p c = true)
    (hb : ∀ c ∈ b, p c = true) (hx : ∀ c ∈ x.head?, p c = false) (hy : ∀ c ∈ y.head?, p c = false)
    (h : a ++ x = b ++ y) : a = b ∧ x = y := by
  have hspan : ∀ {a x : List Char}, (∀ c ∈ a, p c = true) → (∀ c ∈ x.head?, p c = false) →
      (a ++ x).takeWhile p = a := by
    intro a x ha hx
    rw [List.takeWhile_append_of_pos ha]
    cases x with
    | nil => simp
    | cons c x => simp [hx c (by simp)]
  have hab : a = b := by rw [← hspan ha hx, h, hspan hb hy]
  subst hab
  exact ⟨rfl, List.append_cancel_left h⟩

/-- The items of a list behind the first, each behind a separator. -/
def behind {α : Type} (separator : List Char) (text : α → List Char) (items : List α) :
    List Char :=
  items.flatMap fun item => separator ++ text item

section

variable {α β : Type} {text : α → List Char} {key : α → β} {separator : List Char}
  {endsItem ends : List Char → Prop}

@[simp] theorem behind_nil : behind separator text [] = [] := rfl

@[simp] theorem behind_cons (item : α) (items : List α) :
    behind separator text (item :: items)
      = separator ++ text item ++ behind separator text items := by
  simp [behind]

/-- What follows an item of a list is a place where an item may end. -/
theorem endsItem_behind (hsep : ∀ r, endsItem (separator ++ r)) (hend : ∀ r, ends r → endsItem r)
    (items : List α) {r : List Char} (hr : ends r) :
    endsItem (behind separator text items ++ r) := by
  cases items with
  | nil => exact hend r hr
  | cons item items =>
      rw [behind_cons, List.append_assoc, List.append_assoc]
      exact hsep _

/-- Items behind separators are fixed by their text, and so is what follows them. -/
theorem behind_unique (hsep : ∀ r, endsItem (separator ++ r)) (hend : ∀ r, ends r → endsItem r)
    (hne : ∀ r w, ends r → r ≠ separator ++ w) :
    ∀ (xs ys : List α),
      (∀ a ∈ xs, ∀ b ∈ ys, ∀ x y, endsItem x → endsItem y → text a ++ x = text b ++ y →
        key a = key b ∧ x = y) →
      ∀ {x y : List Char}, ends x → ends y →
        behind separator text xs ++ x = behind separator text ys ++ y →
        xs.map key = ys.map key ∧ x = y := by
  intro xs
  induction xs with
  | nil =>
      intro ys _ x y hx _ h
      cases ys with
      | nil => exact ⟨rfl, h⟩
      | cons b ys =>
          rw [behind_nil, List.nil_append, behind_cons, List.append_assoc, List.append_assoc] at h
          exact absurd h (hne x _ hx)
  | cons a xs ih =>
      intro ys hitem x y hx hy h
      cases ys with
      | nil =>
          rw [behind_nil, List.nil_append, behind_cons, List.append_assoc, List.append_assoc] at h
          exact absurd h.symm (hne y _ hy)
      | cons b ys =>
          simp only [behind_cons, List.append_assoc] at h
          obtain ⟨hkey, hrest⟩ := hitem a (by simp) b (by simp) _ _
            (endsItem_behind hsep hend xs hx) (endsItem_behind hsep hend ys hy)
            (List.append_cancel_left h)
          obtain ⟨hkeys, hxy⟩ := ih ys
            (fun a' ha' b' hb' => hitem a' (List.mem_cons_of_mem _ ha') b'
              (List.mem_cons_of_mem _ hb')) hx hy hrest
          exact ⟨by rw [List.map_cons, List.map_cons, hkey, hkeys], hxy⟩

/-- The same for the first item and the items behind it. -/
theorem separated_unique (key : α → β) (endsItem ends : List Char → Prop)
    (hsep : ∀ r, endsItem (separator ++ r)) (hend : ∀ r, ends r → endsItem r)
    (hne : ∀ r w, ends r → r ≠ separator ++ w) {a b : α} {xs ys : List α}
    (hitem : ∀ c ∈ a :: xs, ∀ d ∈ b :: ys, ∀ x y, endsItem x → endsItem y →
      text c ++ x = text d ++ y → key c = key d ∧ x = y)
    {x y : List Char} (hx : ends x) (hy : ends y)
    (h : text a ++ (behind separator text xs ++ x) = text b ++ (behind separator text ys ++ y)) :
    (a :: xs).map key = (b :: ys).map key ∧ x = y := by
  obtain ⟨hkey, hrest⟩ := hitem a (by simp) b (by simp) _ _
    (endsItem_behind hsep hend xs hx) (endsItem_behind hsep hend ys hy) h
  obtain ⟨hkeys, hxy⟩ := behind_unique hsep hend hne xs ys
    (fun c hc d hd => hitem c (List.mem_cons_of_mem _ hc) d (List.mem_cons_of_mem _ hd))
    hx hy hrest
  exact ⟨by rw [List.map_cons, List.map_cons, hkey, hkeys], hxy⟩

end

end ApiTypings.Text
