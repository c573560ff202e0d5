/-
Response keys and the status codes they stand for.

A key is a code (`200`), a class (`4XX`) or `default`.  A code stands for itself, a class
for the registered codes of its hundred, and `default` for the registered codes from
100 to 599 that no other key of the same list stands for, wherever in the list it is.
-/
import ApiTypings.Json.Basic

namespace ApiTypings

abbrev StatusCode := Nat

namespace StatusCode

/-- A response succeeds with the codes from 200 to 299. -/
def isSuccess (code : StatusCode) : Bool := 200 ≤ code && code < 300

/-- Adds a code to an ascending list that does not hold it. -/
def insertAscending (code : StatusCode) : List StatusCode → List StatusCode
  | [] => [code]
  | c :: rest =>
    if code < c then code :: c :: rest
    else if code = c then c :: rest
    else c :: insertAscending code rest

/-- The codes of a list in strictly ascending order. -/
def ascending (codes : List StatusCode) : List StatusCode := codes.foldr insertAscending []

theorem mem_insertAscending {code c : StatusCode} {codes : List StatusCode} :
    c ∈ insertAscending code codes ↔ c = code ∨ c ∈ codes := by
  induction codes with
  | nil => simp [insertAscending]
  | cons d rest ih => grind [insertAscending]

theorem pairwise_insertAscending {code : StatusCode} {codes : List StatusCode}
    (h : codes.Pairwise (· < ·)) : (insertAscending code codes).Pairwise (· < ·) := by
  induction codes with
  | nil => simp [insertAscending]
  | cons d rest ih =>
    have hd := (List.pairwise_cons.mp h).1
    have hrest := ih h.of_cons
    unfold insertAscending
    split
    · refine List.Pairwise.cons (fun c hc => ?_) h
      rcases List.mem_cons.mp hc with rfl | hc
      · assumption
      · exact Nat.lt_trans (by assumption) (hd c hc)
    · split
      · exact h
      · refine List.Pairwise.cons (fun c hc => ?_) hrest
        rcases mem_insertAscending.mp hc with rfl | hc
        · exact Nat.lt_of_le_of_ne (Nat.not_lt.mp ‹_›) (Ne.symm ‹_›)
        · exact hd c hc

theorem pairwise_ascending (codes : List StatusCode) : (ascending codes).Pairwise (· < ·) := by
  induction codes with
  | nil => exact .nil
  | cons code rest ih => exact pairwise_insertAscending ih

/-- The codes that a class or `default` can stand for. -/
structure Registry where
  codes : List StatusCode
  ascending : codes.Pairwise (· < ·)

namespace Registry

def ofList (codes : List StatusCode) : Registry :=
  ⟨StatusCode.ascending codes, pairwise_ascending codes⟩

/-- The registered codes from `low` to `high`. -/
def between (registry : Registry) (low high : StatusCode) : List StatusCode :=
  registry.codes.filter fun code => low ≤ code && code ≤ high

/-- The standard codes of the protocol, and 418. -/
def standard : Registry := .ofList [
  100, 101, 102, 103,
  200, 201, 202, 203, 204, 205, 206, 207, 208, 226,
  300, 301, 302, 303, 304, 305, 307, 308,
  400, 401, 402, 403, 404, 405, 406, 407, 408, 409, 410, 411, 412, 413, 414, 415, 416, 417, 418,
  421, 422, 423, 424, 425, 426, 428, 429, 431, 451,
  500, 501, 502, 503, 504, 505, 506, 507, 508, 510, 511]

end Registry

/-- A response key. -/
inductive Key
  | code (code : StatusCode)
  /-- all codes of a hundred: `4XX` is the class 4 -/
  | hundred (digit : Nat)
  | default
  deriving DecidableEq

namespace Key

/-- The key that a text spells: `default`, or a digit from 1 to 5 followed by `XX` or by two
digits. -/
def ofText? (text : String) : Option Key :=
  if text = "default" then some .default
  else
    match text.toList with
    | [a, b, c] =>
      if '1' ≤ a ∧ a ≤ '5' then
        if b = 'X' ∧ c = 'X' then some (.hundred (a.toNat - 48))
        else if b.isDigit ∧ c.isDigit then
          some (.code ((a.toNat - 48) * 100 + (b.toNat - 48) * 10 + (c.toNat - 48)))
        else none
      else none
    | _ => none

/-- The codes that a key names by itself. -/
def claims (registry : Registry) : Key → List StatusCode
  | .code n => [n]
  | .hundred digit => registry.between (digit * 100) (digit * 100 + 99)
  | .default => []

end Key

/-- The codes of one key, in ascending order. -/
structure CodeSet where
  codes : List StatusCode
  deriving DecidableEq

namespace CodeSet

/-- The only code of a set that has one code. -/
def single? (set : CodeSet) : Option StatusCode :=
  match set.codes with
  | [code] => some code
  | _ => none

/-- Whether the codes are all successes (`true`), none of them is (`false`), or it depends. -/
def success? (set : CodeSet) : Option Bool :=
  if set.codes.all isSuccess then some true
  else if set.codes.any isSuccess then none
  else some false

end CodeSet

/-- The keys of a list of entries; the first text that is no key ends the reading. -/
def parseKeys {α : Type} : List (String × α) → Except String (List (Key × α))
  | [] => .ok []
  | (text, value) :: rest =>
    match Key.ofText? text with
    | none => .error text
    | some key =>
      match parseKeys rest with
      | .error bad => .error bad
      | .ok keys => .ok ((key, value) :: keys)

/-- The codes of one key among all keys of a list. -/
def codesOf (registry : Registry) (claimed : List StatusCode) : Key → CodeSet
  | .default => ⟨(registry.between 100 599).filter fun code => !claimed.contains code⟩
  | key => ⟨key.claims registry⟩

/-- Each entry with the codes of its key, in the order of the entries. The error is the first text
that is no key. -/
def expand {α : Type} (registry : Registry) (entries : List (String × α)) :
    Except String (List (CodeSet × α)) :=
  match parseKeys entries with
  | .error bad => .error bad
  | .ok keys =>
    let claimed := keys.flatMap fun entry => entry.1.claims registry
    .ok (keys.map fun entry => (codesOf registry claimed entry.1, entry.2))

end StatusCode
end ApiTypings
