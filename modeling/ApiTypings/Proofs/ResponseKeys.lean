/-
How response keys are written.

A key has one text: a code its three digits, a class its digit and `XX`.  `Spells` says this from
the side of the key, by printing it, while `ofText?` looks at one character after the other.
Both come to the same, so that reading the keys of a list fails exactly at the first text that
spells none.
-/
import Mathlib
import ApiTypings.StatusCode

namespace ApiTypings.StatusCode

/-! ### Digits -/

theorem isDigit_iff {c : Char} : c.isDigit = true ↔ 48 ≤ c.toNat ∧ c.toNat ≤ 57 :=
  Char.isDigit_iff_toNat

theorem digitChar_sub {c : Char} (h : c.isDigit = true) : Nat.digitChar (c.toNat - 48) = c := by
  have hrange := isDigit_iff.mp h
  apply Char.toNat_inj.mp
  rw [Nat.toNat_digitChar_of_lt_ten (by omega)]
  omega

/-- A number of three digits is written with these. -/
theorem toDigits_three {a b c : Nat} (ha : 0 < a) (ha' : a < 10) (hb : b < 10) (hc : c < 10) :
    Nat.toDigits 10 (a * 100 + b * 10 + c)
      = [Nat.digitChar a, Nat.digitChar b, Nat.digitChar c] := by
  have htwo : Nat.toDigits 10 (10 * a + b) = [Nat.digitChar a] ++ [Nat.digitChar b] := by
    rw [← Nat.toDigits_append_toDigits (by decide) ha hb, Nat.toDigits_of_lt_base ha',
      Nat.toDigits_of_lt_base hb]
  have hsum : a * 100 + b * 10 + c = 10 * (10 * a + b) + c := by omega
  rw [hsum, ← Nat.toDigits_append_toDigits (by decide) (by omega) hc, htwo,
    Nat.toDigits_of_lt_base hc]
  rfl

namespace Key

/-! ### One text -/

/-- The text spells the key. -/
inductive Spells : String → Key → Prop
  | default : Spells "default" .default
  | hundred {digit : Nat} (low : 1 ≤ digit) (high : digit ≤ 5) :
    Spells (toString digit ++ "XX") (.hundred digit)
  | code {n : Nat} (low : 100 ≤ n) (high : n ≤ 599) : Spells (toString n) (.code n)

theorem toList_hundred {digit : Nat} (h : digit ≤ 5) :
    (toString digit ++ "XX").toList = [Nat.digitChar digit, 'X', 'X'] := by
  have hdigit : (toString digit).toList = [Nat.digitChar digit] := by
    rw [← Nat.toDigits_of_lt_base (b := 10) (by omega)]
    exact Nat.toList_repr
  rw [String.toList_append, hdigit]
  rfl

theorem toList_code {n : Nat} (low : 100 ≤ n) (high : n ≤ 599) :
    (toString n).toList
      = [Nat.digitChar (n / 100), Nat.digitChar (n / 10 % 10), Nat.digitChar (n % 10)] := by
  have hsum : n / 100 * 100 + n / 10 % 10 * 10 + n % 10 = n := by omega
  rw [← toDigits_three (by omega) (by omega) (by omega) (by omega), hsum]
  exact Nat.toList_repr

theorem ne_default_of_length {text : String} (h : text.toList.length = 3) : text ≠ "default" := by
  rintro rfl
  exact absurd h (by decide)

/-- Where the first character is a digit of a class. -/
theorem first_iff {c : Char} : ('1' ≤ c ∧ c ≤ '5') ↔ 49 ≤ c.toNat ∧ c.toNat ≤ 53 := Iff.rfl

theorem spells_of_ofText? {text : String} {key : Key} (h : ofText? text = some key) :
    Spells text key := by
  unfold ofText? at h
  split at h
  · rename_i hdefault
    cases h
    exact hdefault ▸ .default
  · split at h
    · rename_i a b c htext
      split at h
      · rename_i hfirst
        obtain ⟨hlow, hhigh⟩ := first_iff.mp hfirst
        have ha : a.isDigit = true := isDigit_iff.mpr ⟨by omega, by omega⟩
        split at h
        · rename_i hclass
          obtain ⟨rfl, rfl⟩ := hclass
          cases h
          have htext : text = toString (a.toNat - 48) ++ "XX" := by
            rw [← String.toList_inj, htext, toList_hundred (by omega), digitChar_sub ha]
          exact htext ▸ .hundred (by omega) (by omega)
        · split at h
          · rename_i hdigits
            obtain ⟨hb, hc⟩ := hdigits
            cases h
            have hb' := isDigit_iff.mp hb
            have hc' := isDigit_iff.mp hc
            have htext : text
                = toString ((a.toNat - 48) * 100 + (b.toNat - 48) * 10 + (c.toNat - 48)) := by
              rw [← String.toList_inj, htext]
              refine Eq.trans ?_ Nat.toList_repr.symm
              rw [toDigits_three (by omega) (by omega) (by omega) (by omega), digitChar_sub ha,
                digitChar_sub hb, digitChar_sub hc]
            exact htext ▸ .code (by omega) (by omega)
          · cases h
      · cases h
    · cases h

theorem ofText?_of_spells {text : String} {key : Key} (h : Spells text key) :
    ofText? text = some key := by
  cases h with
  | default => rfl
  | @hundred digit low high =>
      have htext := toList_hundred high
      have hfirst : (Nat.digitChar digit).toNat = 48 + digit :=
        Nat.toNat_digitChar_of_lt_ten (by omega)
      rw [ofText?, if_neg (ne_default_of_length (by rw [htext]; rfl)), htext]
      simp only [first_iff, hfirst]
      rw [if_pos (by omega), if_pos ⟨trivial, trivial⟩, Nat.add_sub_cancel_left]
  | @code n low high =>
      have htext := toList_code low high
      have hfirst : (Nat.digitChar (n / 100)).toNat = 48 + n / 100 :=
        Nat.toNat_digitChar_of_lt_ten (by omega)
      have hsecond : (Nat.digitChar (n / 10 % 10)).toNat = 48 + n / 10 % 10 :=
        Nat.toNat_digitChar_of_lt_ten (by omega)
      have hthird : (Nat.digitChar (n % 10)).toNat = 48 + n % 10 :=
        Nat.toNat_digitChar_of_lt_ten (by omega)
      have hclass : Nat.digitChar (n / 10 % 10) ≠ 'X' := by
        intro h
        rw [h] at hsecond
        have : 'X'.toNat = 88 := rfl
        omega
      have hsum : (48 + n / 100 - 48) * 100 + (48 + n / 10 % 10 - 48) * 10 + (48 + n % 10 - 48)
          = n := by omega
      rw [ofText?, if_neg (ne_default_of_length (by rw [htext]; rfl)), htext]
      simp only [first_iff, hfirst, hsecond, hthird, Nat.isDigit_digitChar]
      rw [if_pos (by omega), if_neg (fun h => hclass h.1), if_pos (by simp; omega)]
      exact congrArg (fun m => some (code m)) hsum

/-- **Reading a text and writing a key are two sides of one thing.** -/
theorem ofText?_eq_some_iff {text : String} {key : Key} :
    ofText? text = some key ↔ Spells text key :=
  ⟨spells_of_ofText?, ofText?_of_spells⟩

/-- A text spells one key at most. -/
theorem Spells.spells_iff {text : String} {key other : Key} (h : Spells text key) :
    Spells text other ↔ key = other := by
  rw [← ofText?_eq_some_iff, ofText?_of_spells h, Option.some_inj]

theorem Spells.text_eq {first second : String} {key : Key} (hfirst : Spells first key)
    (hsecond : Spells second key) : first = second := by
  cases hfirst <;> cases hsecond <;> rfl

theorem ofText?_eq_none_iff {text : String} : ofText? text = none ↔ ¬∃ key, Spells text key := by
  simp only [← ofText?_eq_some_iff, Option.eq_none_iff_forall_ne_some, not_exists, ne_eq]

theorem spells_default_iff {text : String} : Spells text .default ↔ text = "default" := by
  constructor
  · rintro ⟨⟩
    rfl
  · rintro rfl
    exact .default

end Key

/-! ### The texts of a list -/

variable {α : Type}

/-- The entry has a text that spells the key, and the same value. -/
def Reads (entry : String × α) (key : Key × α) : Prop :=
  Key.Spells entry.1 key.1 ∧ entry.2 = key.2

theorem parseKeys_eq_ok_iff {entries : List (String × α)} {keys : List (Key × α)} :
    parseKeys entries = .ok keys ↔ List.Forall₂ Reads entries keys := by
  induction entries generalizing keys with
  | nil => simp [parseKeys, eq_comm]
  | cons entry entries ih =>
      obtain ⟨text, value⟩ := entry
      rw [parseKeys, List.forall₂_cons_left_iff]
      constructor
      · intro h
        split at h
        · cases h
        · rename_i key hkey
          split at h
          · cases h
          · rename_i rest hrest
            cases h
            exact ⟨(key, value), rest, ⟨Key.spells_of_ofText? hkey, rfl⟩, ih.mp hrest, rfl⟩
      · rintro ⟨⟨key, other⟩, rest, ⟨hkey, rfl⟩, hrest, rfl⟩
        simp only [Key.ofText?_of_spells hkey, ih.mpr hrest]

/-- The first text that spells no key. -/
def FirstWithoutKey (entries : List (String × α)) (text : String) : Prop :=
  ∃ before value after, entries = before ++ (text, value) :: after
    ∧ (∀ entry ∈ before, ∃ key, Key.Spells entry.1 key) ∧ ¬∃ key, Key.Spells text key

theorem firstWithoutKey_cons {text bad : String} {value : α} {entries : List (String × α)} :
    FirstWithoutKey ((text, value) :: entries) bad
      ↔ (text = bad ∧ ¬∃ key, Key.Spells text key)
        ∨ (∃ key, Key.Spells text key) ∧ FirstWithoutKey entries bad := by
  constructor
  · rintro ⟨before, found, after, hentries, hbefore, hbad⟩
    cases before with
    | nil =>
        cases hentries
        exact .inl ⟨rfl, hbad⟩
    | cons first before =>
        cases hentries
        obtain ⟨hfirst, hbefore⟩ := List.forall_mem_cons.mp hbefore
        exact .inr ⟨hfirst, before, found, after, rfl, hbefore, hbad⟩
  · rintro (⟨rfl, hbad⟩ | ⟨hfirst, before, found, after, rfl, hbefore, hbad⟩)
    · exact ⟨[], value, entries, rfl, nofun, hbad⟩
    · exact ⟨(text, value) :: before, found, after, rfl,
        List.forall_mem_cons.mpr ⟨hfirst, hbefore⟩, hbad⟩

/-- **Reading the keys of a list fails at the first text that spells none.** -/
theorem parseKeys_eq_error_iff {entries : List (String × α)} {bad : String} :
    parseKeys entries = .error bad ↔ FirstWithoutKey entries bad := by
  induction entries with
  | nil =>
      refine ⟨nofun, ?_⟩
      rintro ⟨before, value, after, hentries, -⟩
      simp at hentries
  | cons entry entries ih =>
      obtain ⟨text, value⟩ := entry
      rw [parseKeys, firstWithoutKey_cons, ← ih, ← Key.ofText?_eq_none_iff]
      cases hkey : Key.ofText? text with
      | none =>
          have hnone : ¬∃ key, Key.Spells text key := Key.ofText?_eq_none_iff.mp hkey
          simp [hnone]
      | some key =>
          have hsome : ∃ key, Key.Spells text key := ⟨key, Key.spells_of_ofText? hkey⟩
          cases parseKeys entries <;> simp [hsome]

/-- A list in which some text spells no key has a first such text. -/
theorem exists_firstWithoutKey_iff {entries : List (String × α)} :
    (∃ bad, FirstWithoutKey entries bad) ↔ ∃ entry ∈ entries, ¬∃ key, Key.Spells entry.1 key := by
  constructor
  · rintro ⟨bad, before, value, after, rfl, -, hbad⟩
    exact ⟨(bad, value), by simp, hbad⟩
  · rintro ⟨entry, hentry, hnone⟩
    induction entries with
    | nil => cases hentry
    | cons first entries ih =>
        by_cases hfirst : ∃ key, Key.Spells first.1 key
        · rcases List.mem_cons.mp hentry with rfl | hentry
          · exact absurd hfirst hnone
          · obtain ⟨bad, hbad⟩ := ih hentry
            exact ⟨bad, firstWithoutKey_cons.mpr (.inr ⟨hfirst, hbad⟩)⟩
        · exact ⟨first.1, firstWithoutKey_cons.mpr (.inl ⟨rfl, hfirst⟩)⟩

end ApiTypings.StatusCode
