/-
A printed decimal reads back.

`ofText?` undoes `render` in every layout.  Positional text carries the digits in the
order in which they are read, with zeros on one side that only shift the exponent, and
`ofDigits` moves trailing zeros back into it; scientific text carries the exponent
itself.  Either way the decimal that comes out has the digits and the exponent of the
one that went in, because both are canonical.

What the printer of JSON needs from this is only the consequence that the text of a
decimal determines it.
-/
import Mathlib
import ApiTypings.Decimal.Reader

namespace ApiTypings.Decimal

/-! ### Digits -/

theorem toList_toString (n : Nat) : (toString n).toList = Nat.toDigits 10 n :=
  Nat.toList_repr

theorem length_toString (n : Nat) : (toString n).length = (Nat.toDigits 10 n).length := by
  rw [← toList_toString, String.length_toList]

theorem isDigit_of_mem_toDigits {n : Nat} {c : Char} (h : c ∈ Nat.toDigits 10 n) :
    c.isDigit = true :=
  Nat.isDigit_of_mem_toDigits (by decide) (by decide) h

theorem digitsValue_eq (digits : List Char) : digitsValue digits = Nat.ofDigitChars 10 digits 0 :=
  rfl

@[simp] theorem digitsValue_toDigits (n : Nat) : digitsValue (Nat.toDigits 10 n) = n := by
  rw [digitsValue_eq, Nat.ofDigitChars_ten_toDigits]

/-- Zeros in front change nothing. -/
theorem digitsValue_zeros_append (k : Nat) (digits : List Char) :
    digitsValue (List.replicate k '0' ++ digits) = digitsValue digits := by
  simp [digitsValue_eq, Nat.ofDigitChars_append]

/-- Zeros behind multiply by powers of ten. -/
theorem digitsValue_append_zeros (k : Nat) (digits : List Char) :
    digitsValue (digits ++ List.replicate k '0') = digitsValue digits * 10 ^ k := by
  rw [digitsValue_eq, digitsValue_eq, Nat.ofDigitChars_append, Nat.ofDigitChars_replicate_zero,
    Nat.mul_comm]

/-- A text at whose front there is no digit. -/
def NoDigitFirst (text : List Char) : Prop := ∀ c ∈ text.head?, c.isDigit = false

theorem spanDigits_append {digits rest : List Char} (hd : ∀ c ∈ digits, c.isDigit = true)
    (hr : NoDigitFirst rest) : spanDigits (digits ++ rest) = (digits, rest) := by
  have hspan : rest.takeWhile Char.isDigit = [] ∧ rest.dropWhile Char.isDigit = rest := by
    cases rest with
    | nil => simp
    | cons c rest => simp [hr c (by simp)]
  unfold spanDigits
  rw [List.takeWhile_append_of_pos hd, List.dropWhile_append_of_pos hd, hspan.1, hspan.2,
    List.append_nil]

theorem spanDigits_all {digits : List Char} (hd : ∀ c ∈ digits, c.isDigit = true) :
    spanDigits digits = (digits, []) := by
  have h : spanDigits (digits ++ []) = (digits, []) :=
    spanDigits_append hd (by simp [NoDigitFirst])
  rwa [List.append_nil] at h

/-! ### Canonical form -/

/-- Canonical digits are their own canonical form. -/
theorem ofDigits_canonical (d : Decimal) : ofDigits d.negative d.digits d.exponent = d := by
  obtain ⟨negative, digits, exponent, canonical⟩ := d
  unfold CanonicalDigits at canonical
  unfold ofDigits
  by_cases h0 : digits = 0
  · subst h0
    rw [if_pos rfl] at canonical
    subst canonical
    simp [zero]
  · rw [if_neg h0] at canonical
    simp [h0, canonical]

theorem ofDigits_zero (negative : Bool) (exponent : Int) :
    ofDigits negative 0 exponent = zero negative := by
  unfold ofDigits
  simp

/-- Zeros at the end of the digits go into the exponent. -/
theorem ofDigits_mul_ten_pow (negative : Bool) (n k : Nat) (exponent : Int) :
    ofDigits negative (n * 10 ^ k) exponent = ofDigits negative n (exponent + k) := by
  by_cases h0 : n = 0
  · rw [h0, Nat.zero_mul, ofDigits_zero, ofDigits_zero]
  induction k generalizing exponent with
  | zero => simp
  | succ k ih =>
      have hpos : n * 10 ^ (k + 1) ≠ 0 := Nat.mul_ne_zero h0 (by positivity)
      have hsplit : n * 10 ^ (k + 1) = n * 10 ^ k * 10 := by rw [pow_succ, Nat.mul_assoc]
      have hmod : n * 10 ^ (k + 1) % 10 = 0 := by rw [hsplit, Nat.mul_mod_left]
      have hdiv : n * 10 ^ (k + 1) / 10 = n * 10 ^ k := by
        rw [hsplit, Nat.mul_div_cancel _ (by decide)]
      rw [ofDigits, dif_neg hpos, dif_pos hmod, hdiv, ih]
      congr 1
      push_cast
      omega

/-! ### Reading the three kinds of text -/

/-- What an exponent may stand behind, and what it leaves. -/
theorem scanExponentDigits_toDigits (negative : Bool) (n : Nat) :
    scanExponentDigits negative (Nat.toDigits 10 n)
      = some (some (if negative then -(n : Int) else n), []) := by
  unfold scanExponentDigits
  rw [spanDigits_all fun _ => isDigit_of_mem_toDigits]
  cases hd : Nat.toDigits 10 n with
  | nil => exact absurd hd Nat.toDigits_ne_nil
  | cons c digits =>
      have hvalue : digitsValue (c :: digits) = n := by rw [← hd, digitsValue_toDigits]
      simp only [hvalue]

/-- Digits alone, with the head that keeps them apart from a sign. -/
theorem toDigits_eq_cons (n : Nat) :
    ∃ c digits, Nat.toDigits 10 n = c :: digits ∧ c.isDigit = true := by
  cases hd : Nat.toDigits 10 n with
  | nil => exact absurd hd Nat.toDigits_ne_nil
  | cons c digits => exact ⟨c, digits, rfl, isDigit_of_mem_toDigits (n := n) (by simp [hd])⟩

theorem scanExponent_digits (n : Nat) :
    scanExponent ('e' :: Nat.toDigits 10 n) = some (some (n : Int), []) := by
  obtain ⟨c, digits, hd, hc⟩ := toDigits_eq_cons n
  have hscan := scanExponentDigits_toDigits false n
  rw [hd] at hscan ⊢
  unfold scanExponent
  simp only [true_or, if_true]
  split
  · rename_i h
    cases h
    simp at hc
  · rename_i h
    cases h
    simp at hc
  · exact hscan

theorem toList_toString_int (exponent : Int) : (toString exponent).toList
    = if 0 ≤ exponent then Nat.toDigits 10 exponent.toNat
      else '-' :: Nat.toDigits 10 exponent.natAbs := by
  rw [Int.toString_eq_repr, Int.repr_eq_if]
  split
  · exact Nat.toList_repr
  · rename_i hneg
    have habs : (-exponent).toNat = exponent.natAbs := by omega
    rw [String.toList_append, Nat.toList_repr, habs]
    rfl

/-- The exponent that `scientific` writes. -/
theorem scanExponent_written (plusSign : Bool) (exponent : Int) :
    scanExponent ('e' :: ((if plusSign && 0 ≤ exponent then "+" else "")
      ++ toString exponent).toList) = some (some exponent, []) := by
  rw [String.toList_append, toList_toString_int]
  by_cases h : 0 ≤ exponent
  · rw [if_pos h]
    have hcast : ((exponent.toNat : Nat) : Int) = exponent := Int.toNat_of_nonneg h
    cases plusSign with
    | false => simpa [hcast] using scanExponent_digits exponent.toNat
    | true =>
        simpa [h, scanExponent, hcast] using scanExponentDigits_toDigits false exponent.toNat
  · rw [if_neg h]
    have hscan := scanExponentDigits_toDigits true exponent.natAbs
    rw [show (if true then -((exponent.natAbs : Nat) : Int) else exponent.natAbs) = exponent by
      rw [if_pos rfl]; omega] at hscan
    simpa [h, scanExponent] using hscan

/-- Digits, and an exponent or nothing. -/
theorem ofUnsigned?_whole (negative : Bool) {whole rest : List Char} {exponent : Option Int}
    (hw : ∀ c ∈ whole, c.isDigit = true) (hne : whole ≠ [])
    (hr : NoDigitFirst rest) (hp : rest.head? ≠ some '.')
    (he : scanExponent rest = some (exponent, [])) :
    ofUnsigned? negative (whole ++ rest)
      = some (ofDigits negative (digitsValue whole) (exponent.getD 0)) := by
  unfold ofUnsigned?
  rw [spanDigits_append hw hr]
  cases rest with
  | nil => simp [he, hne]
  | cons c rest =>
      have hc : c ≠ '.' := by simpa using hp
      simp [hc, he, hne]

/-- Digits around a point, and an exponent or nothing. -/
theorem ofUnsigned?_fraction (negative : Bool) {whole fraction rest : List Char}
    {exponent : Option Int} (hw : ∀ c ∈ whole, c.isDigit = true) (hne : whole ≠ [])
    (hf : ∀ c ∈ fraction, c.isDigit = true) (hr : NoDigitFirst rest)
    (he : scanExponent rest = some (exponent, [])) :
    ofUnsigned? negative (whole ++ '.' :: (fraction ++ rest))
      = some (ofDigits negative (digitsValue (whole ++ fraction))
        (exponent.getD 0 - fraction.length)) := by
  unfold ofUnsigned?
  rw [spanDigits_append hw (by simp [NoDigitFirst])]
  simp [spanDigits_append hf hr, he, hne]

/-- The same where no exponent follows. -/
theorem ofUnsigned?_point (negative : Bool) {whole fraction : List Char}
    (hw : ∀ c ∈ whole, c.isDigit = true) (hne : whole ≠ [])
    (hf : ∀ c ∈ fraction, c.isDigit = true) :
    ofUnsigned? negative (whole ++ '.' :: fraction)
      = some (ofDigits negative (digitsValue (whole ++ fraction)) (-fraction.length)) := by
  have hnone : NoDigitFirst [] := by simp [NoDigitFirst]
  have h := ofUnsigned?_fraction negative hw hne hf hnone rfl
  simpa using h

theorem isDigit_of_mem_zeros {k : Nat} {c : Char} (h : c ∈ List.replicate k '0') :
    c.isDigit = true := by
  rw [List.eq_of_mem_replicate h]
  rfl

/-- Zeros stand between the point and the digits. -/
theorem ofUnsigned?_small (negative : Bool) (n zeros : Nat) :
    ofUnsigned? negative ('0' :: '.' :: (List.replicate zeros '0' ++ Nat.toDigits 10 n))
      = some (ofDigits negative n (-(zeros + (Nat.toDigits 10 n).length : Nat))) := by
  have hvalue : digitsValue ('0' :: (List.replicate zeros '0' ++ Nat.toDigits 10 n)) = n := by
    rw [← List.cons_append, ← List.replicate_succ, digitsValue_zeros_append, digitsValue_toDigits]
  have hzero : ∀ c ∈ ['0'], c.isDigit = true := List.forall_mem_singleton.mpr rfl
  have hfraction : ∀ c ∈ List.replicate zeros '0' ++ Nat.toDigits 10 n, c.isDigit = true :=
    fun c hc => (List.mem_append.mp hc).elim isDigit_of_mem_zeros isDigit_of_mem_toDigits
  have h := ofUnsigned?_point negative hzero (by simp) hfraction
  rw [List.singleton_append, List.singleton_append, hvalue] at h
  rw [h, List.length_append, List.length_replicate]

/-- Zeros stand between the digits and the point. -/
theorem ofUnsigned?_large (negative : Bool) (n zeros : Nat) :
    ofUnsigned? negative (Nat.toDigits 10 n ++ List.replicate zeros '0' ++ '.' :: ['0'])
      = some (ofDigits negative n zeros) := by
  have hvalue : digitsValue (Nat.toDigits 10 n ++ List.replicate zeros '0' ++ ['0'])
      = n * 10 ^ (zeros + 1) := by
    rw [List.append_assoc, ← List.replicate_succ', digitsValue_append_zeros, digitsValue_toDigits]
  rw [ofUnsigned?_point negative ?_ (by simp [Nat.toDigits_ne_nil]) (by simp), hvalue,
    ofDigits_mul_ten_pow]
  · congr 2
    simp
  · exact fun c hc => (List.mem_append.mp hc).elim isDigit_of_mem_toDigits isDigit_of_mem_zeros

/-- The point stands among the digits. -/
theorem ofUnsigned?_inside (negative : Bool) (n : Nat) {places : Nat} (hpos : 0 < places) :
    ofUnsigned? negative ((Nat.toDigits 10 n).take places ++ '.' :: (Nat.toDigits 10 n).drop places)
      = some (ofDigits negative n (-((Nat.toDigits 10 n).length - places : Nat))) := by
  have hne : (Nat.toDigits 10 n).take places ≠ [] := by
    intro hnil
    have hlength := congrArg List.length hnil
    rw [List.length_take, List.length_nil] at hlength
    have := @Nat.length_toDigits_pos 10 n
    omega
  rw [ofUnsigned?_point negative (fun c hc => isDigit_of_mem_toDigits (List.mem_of_mem_take hc)) hne
    (fun c hc => isDigit_of_mem_toDigits (List.mem_of_mem_drop hc)), List.take_append_drop,
    digitsValue_toDigits, List.length_drop]

/-- Positional text reads as the digits, scaled so that the point stands where it was put. -/
theorem ofUnsigned?_positional (negative : Bool) (n : Nat) (point : Int) :
    ofUnsigned? negative (positional (toString n) point).toList
      = some (ofDigits negative n (point - (toString n).length)) := by
  unfold positional
  dsimp only
  rw [length_toString]
  split
  · rw [show ("0." ++ String.ofList (List.replicate (-point).toNat '0') ++ toString n).toList
      = '0' :: '.' :: (List.replicate (-point).toNat '0' ++ Nat.toDigits 10 n) by
        simp, ofUnsigned?_small]
    congr 2
    omega
  · split
    · rw [show (toString n ++ String.ofList (List.replicate
          (point - (Nat.toDigits 10 n).length).toNat '0') ++ ".0").toList
        = Nat.toDigits 10 n ++ List.replicate (point - (Nat.toDigits 10 n).length).toNat '0'
          ++ '.' :: ['0'] by simp, ofUnsigned?_large]
      congr 2
      omega
    · rw [show (String.ofList ((toString n).toList.take point.toNat) ++ "."
          ++ String.ofList ((toString n).toList.drop point.toNat)).toList
        = (Nat.toDigits 10 n).take point.toNat
          ++ '.' :: (Nat.toDigits 10 n).drop point.toNat by simp,
        ofUnsigned?_inside negative n (by omega)]
      congr 2
      omega

/-- Scientific text reads as the digits with the exponent it shows. -/
theorem ofUnsigned?_scientific (negative plusSign : Bool) (n : Nat) (point : Int) :
    ofUnsigned? negative (scientific plusSign (toString n) point).toList
      = some (ofDigits negative n (point - (toString n).length)) := by
  have hexp := scanExponent_written plusSign (point - 1)
  have hfirst : ∀ rest : List Char, NoDigitFirst ('e' :: rest) := by simp [NoDigitFirst]
  rw [length_toString]
  unfold scientific
  rw [toList_toString]
  obtain ⟨c, digits, hd, hc⟩ := toDigits_eq_cons n
  have hall : ∀ x ∈ digits, x.isDigit = true :=
    fun x hx => isDigit_of_mem_toDigits (n := n) (by simp [hd, hx])
  have hvalue : digitsValue (c :: digits) = n := by rw [← hd, digitsValue_toDigits]
  rw [hd]
  cases digits with
  | nil =>
      have hone : ∀ x ∈ [c], x.isDigit = true := List.forall_mem_singleton.mpr hc
      have h := ofUnsigned?_whole negative hone (by simp) (hfirst _) (by simp) hexp
      simpa [hvalue] using h
  | cons x digits =>
      have hone : ∀ y ∈ [c], y.isDigit = true := List.forall_mem_singleton.mpr hc
      have h := ofUnsigned?_fraction negative hone (by simp) hall (hfirst _) hexp
      rw [show [c] ++ x :: digits = c :: x :: digits from rfl, hvalue] at h
      have hshift : (some (point - 1)).getD 0 - ((x :: digits).length : Int)
          = point - ((c :: x :: digits).length : Int) := by
        simp only [Option.getD_some, List.length_cons]
        push_cast
        omega
      rw [hshift] at h
      simpa using h

/-! ### The whole text -/

/-- The text of a decimal without its sign. -/
def magnitude (form : Layout) (d : Decimal) : String :=
  if form.leastPoint ≤ d.length + d.exponent ∧ d.length + d.exponent ≤ form.greatestPoint then
    positional (toString d.digits) (d.length + d.exponent)
  else scientific form.plusSign (toString d.digits) (d.length + d.exponent)

theorem render_eq (form : Layout) (d : Decimal) :
    d.render form = if d.negative then "-" ++ d.magnitude form else d.magnitude form :=
  rfl

theorem ofUnsigned?_magnitude (form : Layout) (d : Decimal) :
    ofUnsigned? d.negative (d.magnitude form).toList = some d := by
  have hexp : (d.length : Int) + d.exponent - (toString d.digits).length = d.exponent := by
    unfold length
    omega
  unfold magnitude
  split
  · rw [ofUnsigned?_positional, hexp, ofDigits_canonical]
  · rw [ofUnsigned?_scientific, hexp, ofDigits_canonical]

/-- Unsigned text is read alike where a sign may stand, for it has none. -/
theorem ofText?_of_ofUnsigned? {text : List Char} {d : Decimal}
    (h : ofUnsigned? false text = some d) : ofText? text = some d := by
  unfold ofText?
  split
  · simp [ofUnsigned?, spanDigits] at h
  · simp [ofUnsigned?, spanDigits] at h
  · exact h

/-- **A printed decimal reads back.** -/
theorem ofText?_render (form : Layout) (d : Decimal) : ofText? (d.render form).toList = some d := by
  have hread := ofUnsigned?_magnitude form d
  rw [render_eq]
  cases hn : d.negative with
  | true =>
      rw [hn] at hread
      rw [if_pos rfl, String.toList_append]
      exact hread
  | false =>
      rw [hn] at hread
      rw [if_neg (by simp)]
      exact ofText?_of_ofUnsigned? hread

/-- The text of a decimal determines it. -/
theorem render_injective {form : Layout} {d e : Decimal} (h : d.render form = e.render form) :
    d = e := by
  have hread := ofText?_render form d
  rw [h, ofText?_render form e] at hread
  exact (Option.some.inj hread).symm

/-! ### The characters of the text

Digits, signs, the point and the letter of the exponent are all that occurs, and one of
the last two always does.  The first says where the text of a number ends, the second
keeps decimals apart from integers.
-/

/-- A character of the text of a number. -/
def isNumberChar (c : Char) : Bool := c.isDigit || c = '.' || c = 'e' || c = '+' || c = '-'

theorem isNumberChar_of_isDigit {c : Char} (h : c.isDigit = true) : isNumberChar c = true := by
  simp [isNumberChar, h]

theorem isNumberChar_of_mem_toDigits {n : Nat} {c : Char} (h : c ∈ Nat.toDigits 10 n) :
    isNumberChar c = true :=
  isNumberChar_of_isDigit (isDigit_of_mem_toDigits h)

theorem isNumberChar_of_mem_int {n : Int} {c : Char} (h : c ∈ (toString n).toList) :
    isNumberChar c = true := by
  rw [toList_toString_int] at h
  split at h
  · exact isNumberChar_of_mem_toDigits h
  · rcases List.mem_cons.mp h with rfl | h
    · rfl
    · exact isNumberChar_of_mem_toDigits h

theorem isNumberChar_of_mem_positional {n : Nat} {point : Int} {c : Char}
    (h : c ∈ (positional (toString n) point).toList) : isNumberChar c = true := by
  have hdigit : ∀ c ∈ (toString n).toList, isNumberChar c = true := by
    intro c hc
    rw [toList_toString] at hc
    exact isNumberChar_of_mem_toDigits hc
  unfold positional at h
  dsimp only at h
  split at h
  · simp only [String.toList_append, String.toList_ofList, List.mem_append,
      List.mem_replicate] at h
    rcases h with (h | ⟨-, rfl⟩) | h
    · fin_cases h <;> rfl
    · rfl
    · exact hdigit c h
  · split at h
    · simp only [String.toList_append, String.toList_ofList, List.mem_append,
        List.mem_replicate] at h
      rcases h with (h | ⟨-, rfl⟩) | h
      · exact hdigit c h
      · rfl
      · fin_cases h <;> rfl
    · simp only [String.toList_append, String.toList_ofList, List.mem_append] at h
      rcases h with (h | h) | h
      · exact hdigit c (List.mem_of_mem_take h)
      · fin_cases h
        rfl
      · exact hdigit c (List.mem_of_mem_drop h)

theorem isNumberChar_of_mem_scientific {plusSign : Bool} {n : Nat} {point : Int} {c : Char}
    (h : c ∈ (scientific plusSign (toString n) point).toList) : isNumberChar c = true := by
  have hdigit : ∀ c ∈ (toString n).toList, isNumberChar c = true := by
    intro c hc
    rw [toList_toString] at hc
    exact isNumberChar_of_mem_toDigits hc
  unfold scientific at h
  simp only [String.toList_append, List.mem_append] at h
  rcases h with ((h | h) | h) | h
  · split at h
    · simp at h
    · rename_i d hd
      exact hdigit c (by rw [hd]; simpa using h)
    · rename_i d digits hne hd
      simp only [String.toList_append, String.toList_ofList, List.mem_append] at h
      rcases h with (h | h) | h
      · exact hdigit c (by rw [hd]; exact List.mem_cons.mpr (Or.inl (by simpa using h)))
      · fin_cases h
        rfl
      · exact hdigit c (by rw [hd]; exact List.mem_cons_of_mem _ h)
  · fin_cases h
    rfl
  · split at h
    · fin_cases h
      rfl
    · simp at h
  · exact isNumberChar_of_mem_int h

theorem isNumberChar_of_mem_render {form : Layout} {d : Decimal} {c : Char}
    (h : c ∈ (d.render form).toList) : isNumberChar c = true := by
  have hmagnitude : ∀ c ∈ (d.magnitude form).toList, isNumberChar c = true := by
    intro c hc
    unfold magnitude at hc
    split at hc
    · exact isNumberChar_of_mem_positional hc
    · exact isNumberChar_of_mem_scientific hc
  rw [render_eq] at h
  split at h
  · rw [String.toList_append] at h
    rcases List.mem_append.mp h with h | h
    · fin_cases h
      rfl
    · exact hmagnitude c h
  · exact hmagnitude c h

/-- Decimals show a point or an exponent. -/
theorem exists_mark_mem_render (form : Layout) (d : Decimal) :
    ∃ c ∈ (d.render form).toList, c.isDigit = false ∧ c ≠ '-' := by
  have hpositional : ∀ point, '.' ∈ (positional (toString d.digits) point).toList := by
    intro point
    unfold positional
    dsimp only
    split
    · simp
    · split <;> simp
  have hmagnitude : '.' ∈ (d.magnitude form).toList ∨ 'e' ∈ (d.magnitude form).toList := by
    unfold magnitude
    split
    · exact Or.inl (hpositional _)
    · exact Or.inr (by simp [scientific])
  have hrender : ∀ c ∈ (d.magnitude form).toList, c ∈ (d.render form).toList := by
    intro c hc
    rw [render_eq]
    split
    · rw [String.toList_append]
      exact List.mem_append_right _ hc
    · exact hc
  rcases hmagnitude with h | h
  · exact ⟨'.', hrender _ h, by decide⟩
  · exact ⟨'e', hrender _ h, by decide⟩

end ApiTypings.Decimal
