/-
Replacing what a regular expression matches.

The matches of an expression are found one behind the other, and what is put in their place may
take up what the groups of the match have taken.  All of this is told in positions.  A replacement
is easier to reason about as one pass over the text: at each place the expression either matches,
and something is put down and the pass goes on behind the match, or it does not, and the character
is kept.  The two agree where a match is never empty, since then each search begins right where
the match before it has ended.

Two forms of expressions are looked at: a few characters in a row, in two groups, and one character
or more of a set.
-/
import Mathlib
import ApiTypings.Regex.Reader

namespace ApiTypings.Regex

/-- A piece of what is put in the place of a match. -/
inductive Insert
  | text (text : List Char)
  /-- what the group of this number has taken -/
  | group (number : Nat)

/-- The part of a text between two positions. -/
def between (text : List Char) (first stop : Nat) : List Char :=
  (text.drop first).take (stop - first)

/-- What a piece comes to at a match in a text. -/
def Match.expand (text : List Char) (found : Match) : Insert → List Char
  | .text inserted => inserted
  | .group number =>
    match found.stop.groups.find? fun group => group.1 == number with
    | some (_, first, stop) => between text first stop
    | none => []

/-- The text from a position on, with the matches replaced. -/
def replaceMatches (inserts : List Insert) (text : List Char) : Nat → List Match → List Char
  | behind, [] => text.drop behind
  | behind, found :: rest =>
    between text behind found.first ++ inserts.flatMap (found.expand text)
      ++ replaceMatches inserts text found.stop.position rest

/-- The text with every match of the expression replaced. -/
def replaceAll (regex : Regex) (inserts : List Insert) (text : String) : String :=
  String.ofList (replaceMatches inserts text.toList 0 (regex.matchesIn true text))

/-! ### Places in a text -/

/-- The place is one of the text: at its position the rest of the text begins. -/
def Place.LiesIn (text : List Char) (place : Place) : Prop :=
  text.drop place.position = place.rest

theorem Place.LiesIn.drop {text : List Char} {place : Place} (h : place.LiesIn text) (count : Nat) :
    text.drop (place.position + count) = place.rest.drop count := by
  rw [← h, List.drop_drop]

/-- Where a match ends that has taken `taken`. -/
structure Place.After (place : Place) (taken : List Char) (stop : Place) : Prop where
  rest : place.rest = taken ++ stop.rest
  position : stop.position = place.position + taken.length

theorem Place.After.liesIn {text taken : List Char} {place stop : Place}
    (h : place.After taken stop) (hlies : place.LiesIn text) : stop.LiesIn text := by
  rw [Place.LiesIn, h.position, hlies.drop, h.rest, List.drop_left]

theorem between_taken {text taken rest : List Char} {place : Place} (hlies : place.LiesIn text)
    (h : place.rest = taken ++ rest) :
    between text place.position (place.position + taken.length) = taken := by
  rw [between, hlies, h, Nat.add_sub_cancel_left, List.take_left]

theorem between_self (text : List Char) (position : Nat) : between text position position = [] := by
  simp [between]

theorem between_cons {text rest : List Char} {c : Char} {first stop : Nat}
    (h : text.drop first = c :: rest) (hlt : first < stop) :
    between text first stop = c :: between text (first + 1) stop := by
  have hrest : text.drop (first + 1) = rest := by
    rw [← List.drop_drop, h, List.drop_one, List.tail_cons]
  rw [between, between, h, hrest, show stop - first = stop - (first + 1) + 1 by omega,
    List.take_succ_cons]

/-! ### One pass over a text -/

/-- What a replacement does at the front of a text: what it puts down for a match there, and what
is left behind the match. -/
abbrev Front := List Char → Option (List Char × List Char)

/-- The expression matches where `front` says so, takes something, and is replaced as it says. -/
structure Replaces (regex : Regex) (inserts : List Insert) (front : Front) : Prop where
  /-- Where nothing is put down there is no match. -/
  of_none : ∀ place : Place, place.groups = [] → front place.rest = none →
    matchAt regex place = none
  /-- Elsewhere a match goes up to what is left, and its groups are in the text. -/
  of_some : ∀ (text : List Char) (place : Place) (put rest : List Char), place.groups = [] →
    place.LiesIn text → front place.rest = some (put, rest) →
    ∃ stop taken, matchAt regex place = some ⟨place.position, stop⟩ ∧ taken ≠ []
      ∧ place.After taken stop ∧ stop.rest = rest
      ∧ inserts.flatMap (Match.expand text ⟨place.position, stop⟩) = put

/-- The pass that `front` stands for. -/
structure Pass (front : Front) (pass : List Char → List Char) : Prop where
  of_some : ∀ {text put rest}, front text = some (put, rest) → pass text = put ++ pass rest
  nil : front [] = none → pass [] = []
  cons : ∀ {c text}, front (c :: text) = none → pass (c :: text) = c :: pass text

section

variable {regex : Regex} {inserts : List Insert} {front : Front} {pass : List Char → List Char}
  {text : List Char}

/-- What a search from a position on finds, and what the pass does up to the end of it. -/
structure Reached (pass : List Char → List Char) (inserts : List Insert) (text : List Char)
    (position : Nat) (rest : List Char) (found : Match) : Prop where
  le_first : position ≤ found.first
  first_lt : found.first < found.stop.position
  liesIn : found.stop.LiesIn text
  shorter : found.stop.rest.length < rest.length
  pass_eq : pass rest = between text position found.first
    ++ inserts.flatMap (found.expand text) ++ pass found.stop.rest

/-- A match at the very place. -/
theorem reached_of_matchAt {place stop : Place} {taken put : List Char} (hpass : Pass front pass)
    (hlies : place.LiesIn text) (hfront : front place.rest = some (put, stop.rest))
    (hne : taken ≠ []) (hafter : place.After taken stop)
    (hput : inserts.flatMap (Match.expand text ⟨place.position, stop⟩) = put) :
    Reached pass inserts text place.position place.rest ⟨place.position, stop⟩ where
  le_first := le_refl _
  first_lt := by
    have hpos := List.length_pos_iff.mpr hne
    have hstop := hafter.position
    simp only
    omega
  liesIn := hafter.liesIn hlies
  shorter := by
    have hpos := List.length_pos_iff.mpr hne
    have hrest := congrArg List.length hafter.rest
    rw [List.length_append] at hrest
    show stop.rest.length < place.rest.length
    omega
  pass_eq := by
    rw [hpass.of_some hfront, hput, between_self, List.nil_append]

/-- A match behind the first character. -/
theorem Reached.cons {position : Nat} {c : Char} {rest : List Char} {found : Match}
    (hpass : Pass front pass) (hlies : text.drop position = c :: rest)
    (hfront : front (c :: rest) = none)
    (h : Reached pass inserts text (position + 1) rest found) :
    Reached pass inserts text position (c :: rest) found where
  le_first := by
    have hle := h.le_first
    omega
  first_lt := h.first_lt
  liesIn := h.liesIn
  shorter := by
    have hshorter := h.shorter
    rw [List.length_cons]
    omega
  pass_eq := by
    rw [hpass.cons hfront, h.pass_eq, between_cons hlies h.le_first]
    rfl

/-- Up to the first match the pass keeps what is there, and all of it if there is none. -/
theorem findIn_cases (hreplaces : Replaces regex inserts front) (hpass : Pass front pass)
    (previous : Option Char) (position : Nat) (rest : List Char)
    (hlies : text.drop position = rest) :
    (findIn regex previous position rest = none ∧ pass rest = rest)
      ∨ ∃ found, findIn regex previous position rest = some found
        ∧ Reached pass inserts text position rest found := by
  induction rest generalizing previous position with
  | nil =>
      let place : Place := ⟨previous, [], position, []⟩
      cases hfront : front [] with
      | none =>
          left
          exact ⟨hreplaces.of_none place rfl hfront, hpass.nil hfront⟩
      | some result =>
          obtain ⟨put, rest⟩ := result
          obtain ⟨stop, taken, -, hne, hafter, -⟩ :=
            hreplaces.of_some text place put rest rfl hlies hfront
          exact absurd (List.append_eq_nil_iff.mp hafter.rest.symm).1 hne
  | cons c rest ih =>
      let place : Place := ⟨previous, c :: rest, position, []⟩
      cases hfront : front (c :: rest) with
      | none =>
          have hmatch : matchAt regex place = none := hreplaces.of_none place rfl hfront
          have hfind : findIn regex previous position (c :: rest)
              = findIn regex (some c) (position + 1) rest := by
            rw [findIn, hmatch]
            rfl
          have hrest : text.drop (position + 1) = rest := by
            rw [← List.drop_drop, hlies, List.drop_one, List.tail_cons]
          rw [hfind]
          rcases ih (some c) (position + 1) hrest with ⟨hnone, hpassed⟩ | ⟨found, hfound, hreached⟩
          · left
            exact ⟨hnone, by rw [hpass.cons hfront, hpassed]⟩
          · right
            exact ⟨found, hfound, hreached.cons hpass hlies hfront⟩
      | some result =>
          obtain ⟨put, after⟩ := result
          have hplace : place.LiesIn text := hlies
          obtain ⟨stop, taken, hmatch, hne, hafter, rfl, hput⟩ :=
            hreplaces.of_some text place put after rfl hplace hfront
          right
          refine ⟨⟨position, stop⟩, ?_, reached_of_matchAt hpass hplace hfront hne hafter hput⟩
          rw [findIn, hmatch]
          rfl

/-- A match that has taken something is the next one of all matches. -/
theorem findAll_of_findFrom {place : Place} {found : Match} {behind : Option Nat}
    (hfind : findFrom regex place = some found) (hlt : found.first < found.stop.position)
    (count : Nat) : findAll regex (count + 1) behind place
      = found :: findAll regex count (some found.stop.position) found.stop := by
  have hne : found.first ≠ found.stop.position := Nat.ne_of_lt hlt
  rw [findAll]
  simp [hfind, hne]

theorem findAll_of_findFrom_none {place : Place} {behind : Option Nat}
    (hfind : findFrom regex place = none) (count : Nat) :
    findAll regex (count + 1) behind place = [] := by
  rw [findAll]
  simp [hfind]

theorem replaceMatches_findAll (hreplaces : Replaces regex inserts front)
    (hpass : Pass front pass) (count : Nat) (behind : Option Nat) (place : Place)
    (hlies : place.LiesIn text) (hcount : place.rest.length < count) :
    replaceMatches inserts text place.position (findAll regex count behind place)
      = pass place.rest := by
  induction count generalizing behind place with
  | zero => omega
  | succ count ih =>
      rcases findIn_cases hreplaces hpass place.previous place.position place.rest hlies with
        ⟨hnone, hpassed⟩ | ⟨found, hfound, hreached⟩
      · rw [findAll_of_findFrom_none hnone, hpassed]
        exact hlies
      · have hshorter := hreached.shorter
        rw [findAll_of_findFrom hfound hreached.first_lt, replaceMatches, hreached.pass_eq,
          ih _ _ hreached.liesIn (by omega)]

/-- **Replacing all matches is one pass over the text.** -/
theorem replaceAll_eq (hreplaces : Replaces regex inserts front) (hpass : Pass front pass)
    (text : String) : regex.replaceAll inserts text = String.ofList (pass text.toList) := by
  have hlies : (Place.start text.toList).LiesIn text.toList := List.drop_zero
  have hcount : text.toList.length < text.length + 2 := by
    rw [String.length_toList]
    omega
  rw [replaceAll, matchesIn]
  exact congrArg String.ofList (replaceMatches_findAll hreplaces hpass _ none _ hlies hcount)

end

/-! ### Characters in a row -/

/-- Characters of sets in a row. -/
def row : List CharSet → Regex
  | [] => .empty
  | set :: sets => .concat (.oneOf set) (row sets)

/-- A character as one group and the characters behind it as another. -/
def parted (first : CharSet) (others : List CharSet) : Regex :=
  .concat (.group 1 (row [first])) (.concat (.group 2 (row others)) .empty)

/-- Characters of a set, at least one and as many as there are. -/
def oneOrMore (set : CharSet) : Regex :=
  .concat (.concat (.oneOf set) (.many true none (.oneOf set))) .empty

/-- Whether a text begins with characters of the sets. -/
def fits : List CharSet → List Char → Bool
  | [], _ => true
  | _ :: _, [] => false
  | set :: sets, c :: text => set.contains c && fits sets text

/-- The place so many characters further on. -/
def Place.skip : Nat → Place → Place
  | count + 1, ⟨_, c :: rest, position, groups⟩ => skip count ⟨some c, rest, position + 1, groups⟩
  | _, place => place

theorem length_le_of_fits {sets : List CharSet} {text : List Char} (h : fits sets text = true) :
    sets.length ≤ text.length := by
  induction sets generalizing text with
  | nil => simp
  | cons set sets ih =>
      cases text with
      | nil => simp [fits] at h
      | cons c text =>
          simp only [fits, Bool.and_eq_true] at h
          simpa using ih h.2

@[simp] theorem Place.groups_skip (count : Nat) (place : Place) :
    (place.skip count).groups = place.groups := by
  fun_induction Place.skip count place with
  | case1 count previous c rest position groups ih => exact ih
  | case2 => rfl

@[simp] theorem Place.rest_skip (count : Nat) (place : Place) :
    (place.skip count).rest = place.rest.drop count := by
  induction count generalizing place with
  | zero => rfl
  | succ count ih =>
      obtain ⟨previous, rest, position, groups⟩ := place
      cases rest with
      | nil => rfl
      | cons c rest => exact ih _

theorem Place.position_skip {count : Nat} {place : Place} (h : count ≤ place.rest.length) :
    (place.skip count).position = place.position + count := by
  induction count generalizing place with
  | zero => rfl
  | succ count ih =>
      obtain ⟨previous, rest, position, groups⟩ := place
      cases rest with
      | nil => simp at h
      | cons c rest =>
          rw [skip, ih (by simpa using h)]
          show position + 1 + count = position + (count + 1)
          omega

theorem Place.after_skip {count : Nat} {place : Place} (h : count ≤ place.rest.length) :
    place.After (place.rest.take count) (place.skip count) where
  rest := by rw [rest_skip, List.take_append_drop]
  position := by rw [position_skip h, List.length_take_of_le h]

/-- A character more in front. -/
theorem Place.After.cons {previous : Option Char} {c : Char} {rest taken : List Char}
    {position : Nat} {groups others : List (Nat × Nat × Nat)} {stop : Place}
    (h : Place.After ⟨some c, rest, position + 1, others⟩ taken stop) :
    Place.After ⟨previous, c :: rest, position, groups⟩ (c :: taken) stop where
  rest := congrArg (c :: ·) h.rest
  position := by
    have hposition := h.position
    simp only [List.length_cons] at hposition ⊢
    omega

theorem Place.After.close {place stop : Place} {taken : List Char} (h : place.After taken stop)
    (number first : Nat) : place.After taken (stop.close number first) :=
  ⟨h.rest, h.position⟩

theorem run_oneOf_cons (set : CharSet) (goal : Goal) (previous : Option Char) (c : Char)
    (rest : List Char) (position : Nat) (groups : List (Nat × Nat × Nat)) :
    run (oneOf set) goal ⟨previous, c :: rest, position, groups⟩
      = if set.contains c then goal ⟨some c, rest, position + 1, groups⟩ else none := rfl

theorem run_row (sets : List CharSet) (goal : Goal) (place : Place) :
    run (row sets) goal place = if fits sets place.rest then goal (place.skip sets.length)
      else none := by
  induction sets generalizing place with
  | nil => simp [row, run, fits, Place.skip]
  | cons set sets ih =>
      obtain ⟨previous, rest, position, groups⟩ := place
      cases rest with
      | nil => simp [row, run, fits]
      | cons c rest =>
          rw [row, run, run_oneOf_cons, ih]
          by_cases hc : set.contains c = true
          · simp [fits, hc, Place.skip]
          · simp [fits, hc]

theorem run_group_row (number : Nat) (sets : List CharSet) (goal : Goal) (place : Place) :
    run (group number (row sets)) goal place = if fits sets place.rest then
      goal ((place.skip sets.length).close number place.position) else none :=
  run_row sets _ place

/-! ### Two groups with something between them -/

/-- What is put down for a match of two groups. -/
def frontParted (first : CharSet) (others : List CharSet) (inserted : List Char) : Front
  | [] => none
  | c :: text =>
    if first.contains c && fits others text then
      some (c :: inserted ++ text.take others.length, text.drop others.length)
    else none

/-- Where the second group begins. -/
def Place.inner (place : Place) : Place := (place.skip 1).close 1 place.position

/-- Where both groups end. -/
def Place.outer (place : Place) (count : Nat) : Place :=
  (place.inner.skip count).close 2 place.inner.position

theorem matchAt_parted (first : CharSet) (others : List CharSet) (place : Place) :
    matchAt (parted first others) place
      = if fits [first] place.rest && fits others place.rest.tail then
          some ⟨place.position, place.outer others.length⟩
        else none := by
  have hinner : place.inner.rest = place.rest.tail :=
    (Place.rest_skip 1 place).trans List.drop_one
  have hrun : run (parted first others) some place
      = if fits [first] place.rest then
          if fits others place.rest.tail then some (place.outer others.length) else none
        else none := by
    rw [← hinner]
    exact (run_group_row 1 [first] _ place).trans (by rw [run, run_group_row]; rfl)
  rw [matchAt, hrun]
  simp only [Bool.and_eq_true, ite_and, apply_ite (Option.map _), Option.map_some,
    Option.map_none]

theorem replaces_parted (first : CharSet) (others : List CharSet) (inserted : List Char) :
    Replaces (parted first others) [.group 1, .text inserted, .group 2]
      (frontParted first others inserted) where
  of_none place _ hfront := by
    rw [matchAt_parted, if_neg]
    intro hfits
    cases hrest : place.rest with
    | nil => simp [hrest, fits] at hfits
    | cons c text =>
        rw [hrest] at hfits hfront
        simp only [fits, Bool.and_true, List.tail_cons] at hfits
        simp [frontParted, hfits] at hfront
  of_some text place put rest hgroups hlies hfront := by
    obtain ⟨previous, here, position, groups⟩ := place
    obtain rfl : groups = [] := hgroups
    cases here with
    | nil => simp [frontParted] at hfront
    | cons c behind =>
        simp only [frontParted, Option.ite_none_right_eq_some, Option.some.injEq,
          Prod.mk.injEq] at hfront
        obtain ⟨hfits, rfl, rfl⟩ := hfront
        let inner : Place := ⟨some c, behind, position + 1, [(1, position, position + 1)]⟩
        have hlength : others.length ≤ inner.rest.length :=
          length_le_of_fits (Bool.and_eq_true_iff.mp hfits).2
        have hinner : inner.LiesIn text := hlies.drop 1
        have hafter : inner.After (behind.take others.length) (inner.skip others.length) :=
          Place.after_skip hlength
        refine ⟨(inner.skip others.length).close 2 inner.position,
          c :: behind.take others.length, ?_, List.cons_ne_nil _ _, hafter.cons.close _ _,
          Place.rest_skip _ _, ?_⟩
        · rw [matchAt_parted, if_pos (by simpa [fits] using hfits)]
          rfl
        · have hfirst : c :: behind = [c] ++ behind := rfl
          have hone : between text position (position + 1) = [c] := between_taken hlies hfirst
          have htwo : between text (position + 1) (inner.skip others.length).position
              = behind.take others.length := by
            rw [hafter.position]
            exact between_taken hinner hafter.rest
          simp [Match.expand, Place.close, inner, hone, htwo]

/-! ### As many characters as there are -/

/-- What is put down for a match of one character or more. -/
def frontRun (set : CharSet) (inserted : List Char) : Front
  | [] => none
  | c :: text => if set.contains c then some (inserted, text.dropWhile set.contains) else none

/-- A repetition with nothing behind it takes all characters of the set. -/
theorem iterate_oneOf (set : CharSet) {count : Nat} {place : Place}
    (h : place.rest.length ≤ count) : iterate true (run (.oneOf set)) some count none place
      = some (place.skip (place.rest.takeWhile set.contains).length) := by
  induction count generalizing place with
  | zero =>
      have hrest : place.rest = [] := List.length_eq_zero_iff.mp (Nat.le_zero.mp h)
      rw [hrest]
      rfl
  | succ count ih =>
      obtain ⟨previous, rest, position, groups⟩ := place
      cases rest with
      | nil => rfl
      | cons c rest =>
          by_cases hc : set.contains c = true
          · have hturn := @ih ⟨some c, rest, position + 1, groups⟩ (by simpa using h)
            simp only [iterate, allows, run_oneOf_cons, hc]
            simp [hturn, Place.skip, hc]
          · simp [iterate, allows, run_oneOf_cons, hc, Place.skip]

theorem matchAt_oneOrMore (set : CharSet) (previous : Option Char) (c : Char) (text : List Char)
    (position : Nat) : matchAt (oneOrMore set) ⟨previous, c :: text, position, []⟩
      = if set.contains c then
          some ⟨position, Place.skip (text.takeWhile set.contains).length
            ⟨some c, text, position + 1, []⟩⟩
        else none := by
  have hmany := iterate_oneOf set (le_refl (Place.mk (some c) text (position + 1) []).rest.length)
  by_cases hc : set.contains c = true
  · rw [if_pos hc, ← Option.map_some, ← hmany]
    simp [matchAt, oneOrMore, run, hc, Place.next?]
  · simp [matchAt, oneOrMore, run, hc]

theorem replaces_oneOrMore (set : CharSet) (inserted : List Char) :
    Replaces (oneOrMore set) [.text inserted] (frontRun set inserted) where
  of_none place hgroups hfront := by
    obtain ⟨previous, here, position, groups⟩ := place
    obtain rfl : groups = [] := hgroups
    cases here with
    | nil => rfl
    | cons c text =>
        rw [matchAt_oneOrMore, if_neg]
        intro hc
        simp [frontRun, hc] at hfront
  of_some text place put rest hgroups hlies hfront := by
    obtain ⟨previous, here, position, groups⟩ := place
    obtain rfl : groups = [] := hgroups
    cases here with
    | nil => simp [frontRun] at hfront
    | cons c behind =>
        simp only [frontRun, Option.ite_none_right_eq_some, Option.some.injEq,
          Prod.mk.injEq] at hfront
        obtain ⟨hc, rfl, rfl⟩ := hfront
        let inner : Place := ⟨some c, behind, position + 1, []⟩
        let count := (behind.takeWhile set.contains).length
        have hafter : inner.After (behind.take count) (inner.skip count) :=
          Place.after_skip (List.takeWhile_prefix set.contains).length_le
        refine ⟨inner.skip count, c :: behind.take count, ?_, List.cons_ne_nil _ _, hafter.cons,
          ?_, by simp [Match.expand]⟩
        · rw [matchAt_oneOrMore, if_pos hc]
        · have hbehind := List.takeWhile_append_dropWhile (p := set.contains) (l := behind)
          rw [Place.rest_skip]
          exact (congrArg (List.drop count) hbehind.symm).trans (List.drop_left)

end ApiTypings.Regex
