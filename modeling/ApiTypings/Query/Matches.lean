/-
Texts cut at the matches of a regular expression.

A match is an array of objects, one for the whole match and one for each group that took
part in it, which tell where the matched text begins, how long it is, what it is and, for a
group with a name, the name.
-/
import ApiTypings.Query.Value
import ApiTypings.Regex.Reader

namespace ApiTypings.Query

/-- How an expression is applied. -/
structure MatchFlags where
  /-- all matches instead of the first -/
  global : Bool := false
  ignoreEmpty : Bool := false
  reading : RegexFlags := {}

namespace MatchFlags

/-- Sets a flag by its letter. -/
def set (flags : MatchFlags) : Char → Option MatchFlags
  | 'g' => some { flags with global := true }
  | 'n' => some { flags with ignoreEmpty := true }
  | 'i' => some { flags with reading := { flags.reading with ignoreCase := true } }
  | 'x' => some { flags with reading := { flags.reading with ignoreBlanks := true } }
  | 's' => some { flags with reading := { flags.reading with dotMatchesNewline := true } }
  | 'l' => some { flags with reading := { flags.reading with swapGreed := true } }
  | 'p' => some { flags with
      ignoreEmpty := true, reading := { flags.reading with dotMatchesNewline := true } }
  | _ => none

/-- The flags that letters stand for. -/
def ofText? (text : String) : Option MatchFlags := text.toList.foldlM set {}

end MatchFlags

namespace Matches

/-- The text between two positions. -/
def between (text : List Char) (first stop : Nat) : String :=
  String.ofList ((text.drop first).take (stop - first))

/-- A matched part of a text. -/
def part (text : List Char) (first stop : Nat) (name : Option String) : Value :=
  .object ([
    ("offset", Value.ofNat first),
    ("length", Value.ofNat (stop - first)),
    ("string", .string (between text first stop))]
    ++ (name.map fun name => ("name", Value.string name)).toList)

/-- A match with its groups in the order of their numbers. -/
def ofMatch (regex : NamedRegex) (groupCount : Nat) (text : List Char) (found : Regex.Match) : Value :=
  let groups := (List.range (groupCount + 1)).filterMap fun number =>
    (found.stop.groups.find? fun group => group.1 == number).map fun (_, first, stop) =>
      part text first stop ((regex.names.find? fun group => group.1 == number).map (·.2))
  .array (part text found.first found.stop.position none :: groups)

/-- The texts between matches and the matches, in order. -/
def pieces (matched : Regex.Match → Value) (text : List Char) :
    Nat → List Regex.Match → List (String ⊕ Value)
  | behind, [] => [.inl (between text behind text.length)]
  | behind, found :: rest =>
    .inl (between text behind found.first) :: .inr (matched found)
      :: pieces matched text found.stop.position rest

/-- The largest number of a group in a match. -/
def lastGroup (found : Regex.Match) : Nat := (found.stop.groups.map (·.1)).foldl max 0

/-- A text cut at the matches of an expression. -/
def ofText (flags : MatchFlags) (regex : NamedRegex) (text : String) : List (String ⊕ Value) :=
  let found := (regex.regex.matchesIn flags.global text).filter fun found =>
    !flags.ignoreEmpty || found.first != found.stop.position
  let chars := text.toList
  pieces (fun found => ofMatch regex (lastGroup found) chars found) chars 0 found

end Matches
end ApiTypings.Query
