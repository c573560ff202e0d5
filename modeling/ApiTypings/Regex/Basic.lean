/-
Regular expressions and what they match.

An expression is matched by going through its parts with the rest of the match still to
be found: each part hands the places it can end at, one after the other, to whatever comes
behind it.  The first way that reaches the end is the match, so of two alternatives the
left one wins, and a repetition takes as much or as little as it can.

Repetitions end because every turn but the last takes at least one character.
-/
namespace ApiTypings

/-- A set of characters as ranges, or all characters but those. -/
structure CharSet where
  ranges : List (Char × Char)
  negated : Bool := false
  deriving DecidableEq, Repr

namespace CharSet

/-- Whether a character is in one of the ranges. -/
def covers (ranges : List (Char × Char)) (c : Char) : Bool :=
  ranges.any fun (first, last) => first ≤ c && c ≤ last

def contains (set : CharSet) (c : Char) : Bool := covers set.ranges c != set.negated

def ofChar (c : Char) : CharSet := ⟨[(c, c)], false⟩

def complement (set : CharSet) : CharSet := { set with negated := !set.negated }

/-- The ranges of the characters that are not in ascending, disjoint ranges, from `start` on. -/
def gaps (start : Nat) : List (Char × Char) → List (Char × Char)
  | [] => if start ≤ 0x10FFFF then [(Char.ofNat start, Char.ofNat 0x10FFFF)] else []
  | (first, last) :: rest =>
    (if start < first.toNat then [(Char.ofNat start, Char.ofNat (first.toNat - 1))] else [])
      ++ gaps (last.toNat + 1) rest

/-- The set without regard to the case of the letters of ASCII. -/
def foldCase (set : CharSet) : CharSet :=
  let meet (low high : Char) (shift : Nat → Nat) : List (Char × Char) :=
    set.ranges.filterMap fun (first, last) =>
      let first := if first < low then low else first
      let last := if high < last then high else last
      if first ≤ last then some (Char.ofNat (shift first.toNat), Char.ofNat (shift last.toNat))
      else none
  { set with ranges := set.ranges ++ meet 'a' 'z' (· - 32) ++ meet 'A' 'Z' (· + 32) }

def digits : CharSet := ⟨[('0', '9')], false⟩

def blanks : CharSet := ⟨[('\t', '\r'), (' ', ' ')], false⟩

/-- The characters of words: letters and digits of ASCII and the underscore. -/
def wordChars : CharSet := ⟨[('0', '9'), ('A', 'Z'), ('_', '_'), ('a', 'z')], false⟩

end CharSet

/-- A condition on a place between two characters. -/
inductive Boundary
  | textStart
  | textEnd
  | lineStart
  | lineEnd
  /-- exactly one of the two characters belongs to a word -/
  | word
  | notWord
  deriving DecidableEq, Repr

inductive Regex
  | empty
  | oneOf (chars : CharSet)
  | boundary (boundary : Boundary)
  | group (number : Nat) (inner : Regex)
  | concat (left right : Regex)
  | either (left right : Regex)
  /-- as often as wanted, and at most so often if there is a limit -/
  | many (greedy : Bool) (limit : Option Nat) (inner : Regex)

namespace Regex

/-- A place in a text, and the groups that have been passed on the way to it. -/
structure Place where
  /-- the character before it -/
  previous : Option Char
  rest : List Char
  position : Nat
  /-- the number of a group, and where it begins and ends -/
  groups : List (Nat × Nat × Nat) := []

namespace Place

/-- The beginning of a text. -/
def start (text : List Char) : Place := ⟨none, text, 0, []⟩

/-- The next place, unless the text ends here. -/
def next? (place : Place) : Option Place :=
  match place.rest with
  | [] => none
  | c :: rest => some { place with previous := some c, rest, position := place.position + 1 }

/-- Whether the place meets a condition. -/
def isAt (place : Place) : Boundary → Bool
  | .textStart => place.previous.isNone
  | .textEnd => place.rest.isEmpty
  | .lineStart => place.previous.all (· = '\n')
  | .lineEnd => place.rest.head?.all (· = '\n')
  | .word => inWord place.previous != inWord place.rest.head?
  | .notWord => inWord place.previous == inWord place.rest.head?
where inWord (c : Option Char) : Bool := c.any CharSet.wordChars.contains

/-- The place with a group that ends here; an earlier turn of the group is forgotten. -/
def close (place : Place) (number first : Nat) : Place :=
  { place with groups :=
    (number, first, place.position) :: place.groups.filter fun group => group.1 != number }

end Place

/-- What is still to be matched behind a part. -/
abbrev Goal := Place → Option Place

/-- Whether one more turn of a repetition is allowed. -/
def allows : Option Nat → Bool
  | none => true
  | some limit => 0 < limit

/-- Turns of a part, and then the goal. There are at most as many turns as characters are left. -/
def iterate (greedy : Bool) (turn : Goal → Goal) (goal : Goal) : Nat → Option Nat → Goal
  | 0, _ => goal
  | left + 1, limit => fun place =>
    let more : Unit → Option Place := fun _ =>
      if allows limit then
        turn (fun after =>
          if after.rest.length < place.rest.length
          then iterate greedy turn goal left (limit.map (· - 1)) after else none) place
      else none
    if greedy then (more ()).orElse fun _ => goal place
    else (goal place).orElse more

/-- The end of the match of an expression from a place, with the goal reached behind it. -/
def run : Regex → Goal → Goal
  | empty, goal => goal
  | oneOf chars, goal => fun place =>
    match place.rest.head? with
    | some c => if chars.contains c then place.next?.bind goal else none
    | none => none
  | boundary condition, goal => fun place => if place.isAt condition then goal place else none
  | group number inner, goal => fun place =>
    run inner (fun after => goal (after.close number place.position)) place
  | concat left right, goal => run left (run right goal)
  | either left right, goal => fun place => (run left goal place).orElse fun _ => run right goal place
  | many greedy limit inner, goal => fun place =>
    iterate greedy (run inner) goal place.rest.length limit place

/-- A match: where it begins, and the place behind it. -/
structure Match where
  first : Nat
  stop : Place

/-- The match that begins at a place. -/
def matchAt (regex : Regex) (place : Place) : Option Match :=
  (regex.run some place).map fun stop => ⟨place.position, stop⟩

/-- The first match in the rest of a text. -/
def findIn (regex : Regex) (previous : Option Char) (position : Nat) : List Char → Option Match
  | [] => matchAt regex ⟨previous, [], position, []⟩
  | c :: rest =>
    (matchAt regex ⟨previous, c :: rest, position, []⟩).orElse fun _ =>
      findIn regex (some c) (position + 1) rest

/-- The first match from a place on. -/
def findFrom (regex : Regex) (place : Place) : Option Match :=
  findIn regex place.previous place.position place.rest

/-- The matches from a place on, one behind the other, at most `count`. Right behind a match there
is no empty one. -/
def findAll (regex : Regex) : Nat → Option Nat → Place → List Match
  | 0, _, _ => []
  | count + 1, behind, place =>
    let found := match findFrom regex place with
      | some found =>
        if found.first = found.stop.position && behind = some found.first then
          place.next?.bind (findFrom regex)
        else some found
      | none => none
    match found with
    | some found => found :: findAll regex count (some found.stop.position) found.stop
    | none => []

/-- All matches in a text, or only the first. Each one ends behind the one before it, or begins
at the start of the text. -/
def matchesIn (regex : Regex) (global : Bool) (text : String) : List Match :=
  findAll regex (if global then text.length + 2 else 1) none (.start text.toList)

end Regex
end ApiTypings
