/-
Blank characters, trimming and lines.

A character is blank when it has the Unicode property `White_Space`, which twenty-five
code points have.  Trimming takes blanks from the ends only.  A line ends with a line
feed, or with a carriage return and a line feed; the end of the text ends the last line
if there is something on it.
-/
namespace ApiTypings.Text

/-- The property `White_Space`. -/
def isBlank (c : Char) : Bool :=
  let n := c.toNat
  (9 ≤ n && n ≤ 13) || n = 0x20 || n = 0x85 || n = 0xA0 || n = 0x1680
    || (0x2000 ≤ n && n ≤ 0x200A) || n = 0x2028 || n = 0x2029 || n = 0x202F || n = 0x205F
    || n = 0x3000

/-- `chars` without the longest end that satisfies `p`. -/
def dropEndWhile (p : Char → Bool) (chars : List Char) : List Char :=
  (chars.reverse.dropWhile p).reverse

/-- The text without blanks at its end. -/
def trimEnd (text : String) : String := String.ofList (dropEndWhile isBlank text.toList)

/-- The text without blanks at its ends. -/
def trim (text : String) : String :=
  String.ofList (dropEndWhile isBlank (text.toList.dropWhile isBlank))

/-- The trimmed text, if anything is left of it. -/
def nonBlank? (text : String) : Option String :=
  let trimmed := trim text
  if trimmed = "" then none else some trimmed

/-- Cuts at every occurrence of `separator`; there is one more piece than there are cuts. -/
def splitOnChar (separator : Char) : List Char → List (List Char)
  | [] => [[]]
  | c :: rest =>
    if c = separator then [] :: splitOnChar separator rest
    else match splitOnChar separator rest with
      | piece :: pieces => (c :: piece) :: pieces
      | [] => [[c]]

/-- The pieces of a text between the occurrences of `separator`. -/
def split (separator : Char) (text : String) : List String :=
  (splitOnChar separator text.toList).map String.ofList

/-- Drops one carriage return from the end of a line. -/
def dropReturn (line : List Char) : List Char :=
  match line.reverse with
  | '\r' :: rest => rest.reverse
  | _ => line

/-- The lines among pieces cut at line feeds: the last piece has no line feed behind it, so its
carriage return stays, and it is no line when it is empty. -/
def linesOfPieces : List (List Char) → List (List Char)
  | [] => []
  | [last] => if last = [] then [] else [last]
  | piece :: pieces => dropReturn piece :: linesOfPieces pieces

/-- The lines of a text without their ends. -/
def lines (text : String) : List String :=
  (linesOfPieces (splitOnChar '\n' text.toList)).map String.ofList

/-- The rest of `text` behind `start`. -/
def afterPrefix? : List Char → List Char → Option (List Char)
  | [], text => some text
  | c :: start, d :: text => if c = d then afterPrefix? start text else none
  | _ :: _, [] => none

/-- Replaces each occurrence of the two-character text `a b`, from the left. -/
def replacePair (a b : Char) (by_ : List Char) : List Char → List Char
  | x :: y :: rest =>
    if x = a ∧ y = b then by_ ++ replacePair a b by_ rest else x :: replacePair a b by_ (y :: rest)
  | rest => rest

end ApiTypings.Text
