/-
The text of regular expressions.

Letters, digits and blanks are matched as they stand unless they are escaped, and every
character of punctuation can be escaped.  The classes of letters and digits know ASCII
alone.  There are no references back to a group, and nothing looks ahead or behind.
-/
import ApiTypings.Decimal.Reader
import ApiTypings.Regex.Basic

namespace ApiTypings

/-- How an expression is read. -/
structure RegexFlags where
  ignoreCase : Bool := false
  /-- the boundaries of lines count -/
  multiLine : Bool := false
  dotMatchesNewline : Bool := false
  /-- greedy repetitions are lazy and the other way around -/
  swapGreed : Bool := false
  /-- blanks and comments between the parts are skipped -/
  ignoreBlanks : Bool := false

/-- An expression with the names of its groups; the groups are numbered from one. -/
structure NamedRegex where
  regex : Regex
  names : List (Nat × String)

namespace Regex.Reader

/-- What has been read so far of groups. -/
structure Groups where
  count : Nat := 0
  names : List (Nat × String) := []

/-- A part that has been read, the flags that hold behind it, the groups, and the rest. -/
abbrev Found (α : Type) := α × RegexFlags × Groups × List Char

/-- Skips blanks and comments, if they do not count. -/
def skip (flags : RegexFlags) (chars : List Char) : List Char :=
  if flags.ignoreBlanks then go false chars else chars
where
  go : Bool → List Char → List Char
    | _, [] => []
    | true, c :: rest => go (c != '\n') rest
    | false, c :: rest =>
      if c = '#' then go true rest else if c.isWhitespace || c = '\x0b' || c = '\x0c' then go false rest
      else c :: rest

/-- The character of a hexadecimal code point. -/
def charOfHex? (digits : List Char) : Option Char := do
  guard !digits.isEmpty
  let n ← digits.foldlM (fun n c =>
    if c.isDigit then some (n * 16 + (c.toNat - 48))
    else if 'a' ≤ c && c ≤ 'f' then some (n * 16 + (c.toNat - 87))
    else if 'A' ≤ c && c ≤ 'F' then some (n * 16 + (c.toNat - 55)) else none) 0
  if h : n.isValidChar then some (Char.ofNatAux n h) else none

/-- The code point behind an escape: in braces, or so many digits. -/
def scanHex (width : Nat) (chars : List Char) : Option (Char × List Char) :=
  match chars with
  | '\x7b' :: rest =>
    match rest.dropWhile (· ≠ '\x7d') with
    | _ :: after => (charOfHex? (rest.takeWhile (· ≠ '\x7d'))).map fun c => (c, after)
    | [] => none
  | chars =>
    if chars.length < width then none
    else (charOfHex? (chars.take width)).map fun c => (c, chars.drop width)

/-- A character that may stand behind a backslash for itself. -/
def isEscapable (c : Char) : Bool := c.toNat < 128 && !c.isAlphanum && c ≠ '<' && c ≠ '>'

/-- The set of an escape behind its backslash. -/
def scanEscape : List Char → Option (CharSet × List Char)
  | 'd' :: rest => some (.digits, rest)
  | 'D' :: rest => some (CharSet.digits.complement, rest)
  | 's' :: rest => some (.blanks, rest)
  | 'S' :: rest => some (CharSet.blanks.complement, rest)
  | 'w' :: rest => some (.wordChars, rest)
  | 'W' :: rest => some (CharSet.wordChars.complement, rest)
  | 'n' :: rest => some (.ofChar '\n', rest)
  | 't' :: rest => some (.ofChar '\t', rest)
  | 'r' :: rest => some (.ofChar '\r', rest)
  | 'f' :: rest => some (.ofChar '\x0c', rest)
  | 'v' :: rest => some (.ofChar '\x0b', rest)
  | 'a' :: rest => some (.ofChar '\x07', rest)
  | 'x' :: rest => (scanHex 2 rest).map fun (c, rest) => (.ofChar c, rest)
  | 'u' :: rest => (scanHex 4 rest).map fun (c, rest) => (.ofChar c, rest)
  | 'U' :: rest => (scanHex 8 rest).map fun (c, rest) => (.ofChar c, rest)
  | c :: rest => if isEscapable c then some (.ofChar c, rest) else none
  | [] => none

/-! ### Sets in brackets -/

/-- The sets with names. -/
def namedSet? : String → Option (List (Char × Char))
  | "alnum" => some [('0', '9'), ('A', 'Z'), ('a', 'z')]
  | "alpha" => some [('A', 'Z'), ('a', 'z')]
  | "ascii" => some [('\x00', '\x7f')]
  | "blank" => some [('\t', '\t'), (' ', ' ')]
  | "cntrl" => some [('\x00', '\x1f'), ('\x7f', '\x7f')]
  | "digit" => some [('0', '9')]
  | "graph" => some [('!', '~')]
  | "lower" => some [('a', 'z')]
  | "print" => some [(' ', '~')]
  | "punct" => some [('!', '/'), (':', '@'), ('[', '\x60'), ('\x7b', '~')]
  | "space" => some [('\t', '\r'), (' ', ' ')]
  | "upper" => some [('A', 'Z')]
  | "word" => some [('0', '9'), ('A', 'Z'), ('_', '_'), ('a', 'z')]
  | "xdigit" => some [('0', '9'), ('A', 'F'), ('a', 'f')]
  | _ => none

/-- A set with a name, behind its opening bracket and colon. -/
def scanNamedSet (chars : List Char) : Option (List (Char × Char) × List Char) := do
  let (negated, chars) := match chars with
    | '^' :: rest => (true, rest)
    | chars => (false, chars)
  let name := chars.takeWhile Char.isAlpha
  let ranges ← namedSet? (String.ofList name)
  match chars.drop name.length with
  | ':' :: ']' :: rest => some (if negated then CharSet.gaps 0 ranges else ranges, rest)
  | _ => none

/-- The ranges that a set stands for as a part of another. -/
def rangesOf (set : CharSet) : List (Char × Char) :=
  if set.negated then CharSet.gaps 0 set.ranges else set.ranges

/-- The one character of a set, if it can be the end of a range. -/
def single? (set : CharSet) : Option Char :=
  match set.negated, set.ranges with
  | false, [(first, last)] => if first = last then some first else none
  | _, _ => none

/-- An item of a set: an escape or a character. -/
def scanItem : List Char → Option (CharSet × List Char)
  | '\\' :: rest => scanEscape rest
  | c :: rest => some (.ofChar c, rest)
  | [] => none

/-- The items of a set behind its opening, up to the closing bracket. -/
def scanItems : Nat → RegexFlags → List (Char × Char) → List Char →
    Option (List (Char × Char) × List Char)
  | 0, _, _, _ => none
  | turns + 1, flags, found, chars =>
    match skip flags chars with
    | [] => none
    | ']' :: rest => some (found, rest)
    | '[' :: ':' :: rest => do
      let (ranges, rest) ← scanNamedSet rest
      scanItems turns flags (found ++ ranges) rest
    | '[' :: _ | '&' :: '&' :: _ | '-' :: '-' :: _ | '~' :: '~' :: _ => none
    | chars => do
      let (item, rest) ← scanItem chars
      match skip flags rest with
      | '-' :: ']' :: _ => scanItems turns flags (found ++ rangesOf item) rest
      | '-' :: '-' :: _ => none
      | '-' :: rest =>
        let first ← single? item
        let (item, rest) ← scanItem (skip flags rest)
        let last ← single? item
        guard (first ≤ last)
        scanItems turns flags (found ++ [(first, last)]) rest
      | _ => scanItems turns flags (found ++ rangesOf item) rest

/-- A set behind its opening bracket. A closing bracket or dashes right at the start belong to
it. -/
def scanSet (flags : RegexFlags) (chars : List Char) : Option (CharSet × List Char) := do
  let (negated, chars) := match skip flags chars with
    | '^' :: rest => (true, rest)
    | chars => (false, chars)
  let chars := skip flags chars
  let dashes := chars.takeWhile (· = '-')
  let chars := skip flags (chars.drop dashes.length)
  let start : List (Char × Char) := if dashes.isEmpty then [] else [('-', '-')]
  let (start, chars) := match start, chars with
    | [], ']' :: rest => ([(']', ']')], rest)
    | start, chars => (start, chars)
  let (ranges, rest) ← scanItems (chars.length + 1) flags start chars
  return (⟨ranges, negated⟩, rest)

/-! ### Repetitions -/

/-- The bounds of a repetition in braces, behind the opening one. -/
def scanBounds (flags : RegexFlags) (chars : List Char) : Option (Nat × Option Nat × List Char) := do
  let number (chars : List Char) : Option (Nat × List Char) :=
    let (digits, rest) := Decimal.spanDigits (skip flags chars)
    if digits.isEmpty then none else some (Decimal.digitsValue digits, skip flags rest)
  let (least, rest) ← number chars
  match rest with
  | '\x7d' :: rest => return (least, some least, rest)
  | ',' :: rest =>
    match skip flags rest with
    | '\x7d' :: rest => return (least, none, rest)
    | rest =>
      let (most, rest) ← number rest
      match rest with
      | '\x7d' :: rest =>
        guard (least ≤ most)
        return (least, some most, rest)
      | _ => none
  | _ => none

/-- A part so many times in a row. -/
def copies (part : Regex) : Nat → Regex
  | 0 => .empty
  | 1 => part
  | n + 1 => .concat part (copies part n)

/-- A part from `least` up to `most` times. -/
def repeated (greedy : Bool) (least : Nat) (most : Option Nat) (part : Regex) : Regex :=
  match most with
  | some most =>
    if most = least then copies part least
    else .concat (copies part least) (.many greedy (some (most - least)) part)
  | none => .concat (copies part least) (.many greedy none part)

/-- The repetition behind a part, if there is one. -/
def scanRepetition (flags : RegexFlags) (part : Regex) (chars : List Char) :
    Option (Option Regex × List Char) :=
  let finish (least : Nat) (most : Option Nat) (rest : List Char) : Option (Option Regex × List Char) :=
    match skip flags rest with
    | '?' :: rest => some (some (repeated flags.swapGreed least most part), rest)
    | rest => some (some (repeated (!flags.swapGreed) least most part), rest)
  match chars with
  | '*' :: rest => finish 0 none rest
  | '+' :: rest => finish 1 none rest
  | '?' :: rest => finish 0 (some 1) rest
  | '\x7b' :: rest => do
    let (least, most, rest) ← scanBounds flags rest
    guard (least ≤ 1000 ∧ most.all (· ≤ 1000))
    finish least most rest
  | chars => some (none, chars)

/-! ### Groups -/

/-- The name of a group, behind its opening angle. -/
def scanGroupName (chars : List Char) : Option (String × List Char) := do
  let isFirst (c : Char) : Bool := c.isAlpha || c = '_'
  let isLater (c : Char) : Bool := c.isAlphanum || c = '_' || c = '.' || c = '[' || c = ']'
  let name := chars.takeWhile isLater
  guard (name.head?.any isFirst)
  match chars.drop name.length with
  | '>' :: rest => some (String.ofList name, rest)
  | _ => none

/-- Sets a flag by its letter. -/
def setFlag (flags : RegexFlags) (value : Bool) : Char → Option RegexFlags
  | 'i' => some { flags with ignoreCase := value }
  | 'm' => some { flags with multiLine := value }
  | 's' => some { flags with dotMatchesNewline := value }
  | 'U' => some { flags with swapGreed := value }
  | 'x' => some { flags with ignoreBlanks := value }
  | _ => none

/-- The letters of flags, those behind a dash for flags that do not hold. -/
def scanFlags (flags : RegexFlags) (letters : List Char) : Option RegexFlags :=
  let on := letters.takeWhile (· ≠ '-')
  match letters.drop on.length with
  | [] => on.foldlM (setFlag · true) flags
  | [_] => none
  | _ :: off => do off.foldlM (setFlag · false) (← on.foldlM (setFlag · true) flags)

/-! ### Expressions -/

/-- A character that stands for itself or for a class. -/
def ofSet (flags : RegexFlags) (set : CharSet) : Regex :=
  .oneOf (if flags.ignoreCase then set.foldCase else set)

mutual
/-- Alternatives, up to a closing bracket or the end. -/
def scanEither : Nat → RegexFlags → Groups → List Char → Option (Found Regex)
  | 0, _, _, _ => none
  | turns + 1, flags, groups, chars => do
    let (left, flags, groups, rest) ← scanConcat turns flags groups chars
    match rest with
    | '|' :: rest =>
      let (right, flags, groups, rest) ← scanEither turns flags groups rest
      return (.either left right, flags, groups, rest)
    | rest => return (left, flags, groups, rest)

/-- Parts in a row. -/
def scanConcat : Nat → RegexFlags → Groups → List Char → Option (Found Regex)
  | 0, _, _, _ => none
  | turns + 1, flags, groups, chars =>
    match skip flags chars with
    | [] => some (.empty, flags, groups, [])
    | '|' :: rest => some (.empty, flags, groups, '|' :: rest)
    | ')' :: rest => some (.empty, flags, groups, ')' :: rest)
    | chars => do
      let (part, flags, groups, rest) ← scanPart turns flags groups chars
      let (part, rest) ← scanRepetitions rest.length flags part (skip flags rest)
      let (more, flags, groups, rest) ← scanConcat turns flags groups rest
      return (.concat (part.getD .empty) more, flags, groups, rest)

/-- All repetitions behind a part. Behind flags, which are no part, there is none. -/
def scanRepetitions : Nat → RegexFlags → Option Regex → List Char →
    Option (Option Regex × List Char)
  | _, _, none, chars => do
    guard !(chars.head?.any fun c => c = '*' || c = '+' || c = '?' || c = '\x7b')
    return (none, chars)
  | 0, _, part, chars => some (part, chars)
  | turns + 1, flags, some part, chars => do
    match ← scanRepetition flags part chars with
    | (none, rest) => return (some part, rest)
    | (some repeated, rest) => scanRepetitions turns flags (some repeated) (skip flags rest)

/-- A part without its repetitions, or flags for the parts behind. -/
def scanPart : Nat → RegexFlags → Groups → List Char → Option (Found (Option Regex))
  | 0, _, _, _ => none
  | turns + 1, flags, groups, chars =>
    let simple (part : Regex) (rest : List Char) : Option (Found (Option Regex)) :=
      some (some part, flags, groups, rest)
    let capture (groups : Groups) (rest : List Char) : Option (Found (Option Regex)) := do
      let number := groups.count
      let (inner, _, groups, rest) ← scanEither turns flags groups rest
      match rest with
      | ')' :: rest => return (some (.group number inner), flags, groups, rest)
      | _ => none
    let named (rest : List Char) : Option (Found (Option Regex)) := do
      let (name, rest) ← scanGroupName rest
      guard !(groups.names.any fun group => group.2 == name)
      let number := groups.count + 1
      capture ⟨number, groups.names ++ [(number, name)]⟩ rest
    match chars with
    | '(' :: '?' :: 'P' :: '<' :: rest => named rest
    | '(' :: '?' :: '<' :: rest => named rest
    | '(' :: '?' :: rest => do
      let letters := rest.takeWhile fun c => c.isAlpha || c = '-'
      let inner ← scanFlags flags letters
      match rest.drop letters.length with
      | ')' :: rest =>
        guard !letters.isEmpty
        return (none, inner, groups, rest)
      | ':' :: rest =>
        let (part, _, groups, rest) ← scanEither turns inner groups rest
        match rest with
        | ')' :: rest => return (some part, flags, groups, rest)
        | _ => none
      | _ => none
    | '(' :: rest => capture { groups with count := groups.count + 1 } rest
    | '[' :: rest => do
      let (set, rest) ← scanSet flags rest
      simple (ofSet flags set) rest
    | '.' :: rest =>
      simple (.oneOf (if flags.dotMatchesNewline then ⟨[], true⟩ else ⟨[('\n', '\n')], true⟩)) rest
    | '^' :: rest => simple (.boundary (if flags.multiLine then .lineStart else .textStart)) rest
    | '$' :: rest => simple (.boundary (if flags.multiLine then .lineEnd else .textEnd)) rest
    | '\\' :: 'b' :: rest => simple (.boundary .word) rest
    | '\\' :: 'B' :: rest => simple (.boundary .notWord) rest
    | '\\' :: 'A' :: rest => simple (.boundary .textStart) rest
    | '\\' :: 'z' :: rest => simple (.boundary .textEnd) rest
    | '\\' :: rest => do
      let (set, rest) ← scanEscape rest
      simple (ofSet flags set) rest
    | '*' :: _ | '+' :: _ | '?' :: _ | '\x7b' :: _ => none
    | c :: rest => simple (ofSet flags (.ofChar c)) rest
    | [] => none
end

end Regex.Reader

/-- The expression that a text spells. -/
def NamedRegex.ofText? (flags : RegexFlags) (text : String) : Option NamedRegex :=
  match Regex.Reader.scanEither (4 * (text.length + 1)) flags {} text.toList with
  | some (regex, _, groups, []) => some ⟨regex, groups.names⟩
  | _ => none

end ApiTypings
