/-
Words inside names, and the names made of them.

A word is a run of ASCII letters and digits.  Between two neighbouring characters of a
run a new word begins where an upper-case letter follows a lower-case letter or a digit,
and before the last of several upper-case letters that a lower-case letter follows: `fooBar` is
two words and so is `HTTPServer`.
-/
import ApiTypings.Text.Blank

namespace ApiTypings.Text

def isUpper (c : Char) : Bool := 'A' ≤ c && c ≤ 'Z'

def isLower (c : Char) : Bool := 'a' ≤ c && c ≤ 'z'

def isDigit (c : Char) : Bool := '0' ≤ c && c ≤ '9'

/-- A letter or digit of ASCII. -/
def isWordChar (c : Char) : Bool := isUpper c || isLower c || isDigit c

/-- The upper-case letter of an ASCII lower-case letter. -/
def toUpper (c : Char) : Char := if isLower c then Char.ofNat (c.toNat - 32) else c

/-- The lower-case letter of an ASCII upper-case letter. -/
def toLower (c : Char) : Char := if isUpper c then Char.ofNat (c.toNat + 32) else c

/-- Whether a word ends between the neighbours `a` and `b`, before `rest`. -/
def endsBetween (a b : Char) (rest : List Char) : Bool :=
  ((isLower a || isDigit a) && isUpper b)
    || (isUpper a && isUpper b && rest.head?.any isLower)

/-- The words of a text in order; no word is empty. -/
def wordsOf : List Char → List (List Char)
  | [] => []
  | a :: rest =>
    if !isWordChar a then wordsOf rest
    else
      match rest with
      | [] => [[a]]
      | b :: rest' =>
        if !isWordChar b || endsBetween a b rest' then [a] :: wordsOf (b :: rest')
        else
          match wordsOf (b :: rest') with
          | word :: words => (a :: word) :: words
          | [] => [[a]]

def words (text : String) : List String := (wordsOf text.toList).map String.ofList

/-- A word as part of a name: capitalised, the rest in lower case. A digit that begins a word
after the first is set off by an underscore. -/
def capitalized (isFirst : Bool) : List Char → List Char
  | [] => []
  | c :: rest =>
    (if !isFirst && isDigit c then ['_', c] else [toUpper c]) ++ rest.map toLower

/-- The capitalised words in a row. -/
def joinCapitalized : List (List Char) → List Char
  | [] => []
  | word :: words => capitalized true word ++ words.flatMap (capitalized false)

/-- The name made of the words of a text: `pet_store` gives `PetStore`, `pet 2` gives `Pet_2`. -/
def pascalCase (text : String) : String := String.ofList (joinCapitalized (wordsOf text.toList))

/-- A character that may begin an identifier. -/
def isIdentifierStart (c : Char) : Bool := isUpper c || isLower c || c = '_' || c = '$'

/-- Whether a text is an identifier of ASCII letters, digits, `_` and `$`. -/
def isIdentifier (text : String) : Bool :=
  match text.toList with
  | [] => false
  | c :: rest => isIdentifierStart c && rest.all fun d => isIdentifierStart d || isDigit d

end ApiTypings.Text
