/-
JSON values that keep what the source text said.

Objects are lists of fields in the order of their first appearance, and a number is
either an integer of 64 bits or the decimal that names a binary64.  Both choices are
visible in what is printed: declarations list properties in source order, and `1`
and `1.0` stay apart.
-/
import ApiTypings.Decimal.Basic

namespace ApiTypings

namespace Json

/-- Whether an integer fits a signed or an unsigned word of 64 bits. -/
def FitsWord (value : Int) : Prop := -9223372036854775808 ≤ value ∧ value < 18446744073709551616

instance (value : Int) : Decidable (FitsWord value) := by unfold FitsWord; infer_instance

/-- A number: an integer in the range of 64-bit words, or a decimal. -/
inductive Number
  | integer (value : Int)
  | decimal (value : Decimal)
  deriving DecidableEq

end Json

/-- A JSON value. The fields of an object are in source order. -/
inductive Json
  | null
  | boolean (value : Bool)
  | number (value : Json.Number)
  | string (value : String)
  | array (items : List Json)
  | object (fields : List (String × Json))

namespace Json

instance : Inhabited Json := ⟨null⟩

def ofNat (n : Nat) : Json := number (.integer n)

/-- A list of key-value pairs with the given pair added: a present key keeps its place and takes
the new value, a new key goes to the end. -/
def insertField {α : Type} (key : String) (value : α) : List (String × α) → List (String × α)
  | [] => [(key, value)]
  | (k, v) :: rest => if k = key then (k, value) :: rest else (k, v) :: insertField key value rest

/-- The value under `key`. -/
def lookup {α : Type} (key : String) : List (String × α) → Option α
  | [] => none
  | (k, v) :: rest => if k = key then some v else lookup key rest

/-- The value of a field, for objects that have it. -/
def field? (key : String) : Json → Option Json
  | object fields => lookup key fields
  | _ => none

/-- The text of a string value. -/
def string? : Json → Option String
  | string text => some text
  | _ => none

mutual
/-- Nesting depth: one for a scalar. -/
def depth : Json → Nat
  | array items => depthItems items + 1
  | object fields => depthFields fields + 1
  | _ => 1

def depthItems : List Json → Nat
  | [] => 0
  | item :: rest => max (depth item) (depthItems rest)

def depthFields : List (String × Json) → Nat
  | [] => 0
  | (_, value) :: rest => max (depth value) (depthFields rest)
end

mutual
/-- Structural equality as a decision. -/
def equal : Json → Json → Bool
  | null, null => true
  | boolean a, boolean b => a == b
  | number a, number b => a == b
  | string a, string b => a == b
  | array a, array b => equalItems a b
  | object a, object b => equalFields a b
  | _, _ => false

def equalItems : List Json → List Json → Bool
  | [], [] => true
  | a :: as, b :: bs => equal a b && equalItems as bs
  | _, _ => false

def equalFields : List (String × Json) → List (String × Json) → Bool
  | [], [] => true
  | (k, a) :: as, (l, b) :: bs => k == l && equal a b && equalFields as bs
  | _, _ => false
end

mutual
theorem eq_of_equal : ∀ {a b : Json}, equal a b = true → a = b
  | null, b, h => by cases b <;> simp_all [equal]
  | boolean a, b, h => by cases b <;> simp_all [equal]
  | number a, b, h => by cases b <;> simp_all [equal]
  | string a, b, h => by cases b <;> simp_all [equal]
  | array a, b, h => by
    cases b <;> simp only [equal, Bool.false_eq_true] at h
    rw [eq_of_equalItems h]
  | object a, b, h => by
    cases b <;> simp only [equal, Bool.false_eq_true] at h
    rw [eq_of_equalFields h]

theorem eq_of_equalItems : ∀ {a b : List Json}, equalItems a b = true → a = b
  | [], b, h => by cases b <;> simp_all [equalItems]
  | a :: as, b, h => by
    cases b with
    | nil => simp [equalItems] at h
    | cons b bs =>
      simp only [equalItems, Bool.and_eq_true] at h
      rw [eq_of_equal h.1, eq_of_equalItems h.2]

theorem eq_of_equalFields : ∀ {a b : List (String × Json)}, equalFields a b = true → a = b
  | [], b, h => by cases b <;> simp_all [equalFields]
  | (k, a) :: as, b, h => by
    cases b with
    | nil => simp [equalFields] at h
    | cons b bs =>
      obtain ⟨l, b⟩ := b
      simp only [equalFields, Bool.and_eq_true, beq_iff_eq] at h
      rw [h.1.1, eq_of_equal h.1.2, eq_of_equalFields h.2]
end

mutual
theorem equal_self : ∀ a : Json, equal a a = true
  | null => rfl
  | boolean _ => by simp [equal]
  | number _ => by simp [equal]
  | string _ => by simp [equal]
  | array items => by simp [equal, equalItems_self items]
  | object fields => by simp [equal, equalFields_self fields]

theorem equalItems_self : ∀ a : List Json, equalItems a a = true
  | [] => rfl
  | a :: as => by simp [equalItems, equal_self a, equalItems_self as]

theorem equalFields_self : ∀ a : List (String × Json), equalFields a a = true
  | [] => rfl
  | (k, a) :: as => by simp [equalFields, equal_self a, equalFields_self as]
end

instance : DecidableEq Json := fun a b =>
  decidable_of_iff (equal a b = true) ⟨eq_of_equal, fun h => h ▸ equal_self a⟩

end Json
end ApiTypings
