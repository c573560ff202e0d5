/-
Reading filters.

From the loosest to the tightest, the operators are the pipe, the comma, the assignments,
the alternative, `or`, `and`, the comparisons, sums, products and the remainder.  A
binding reaches as far to the left as a pipe does, and as far to the right as there is
something to read.

Each call takes one turn.  Between two tokens there are at most eight calls that take
none, which bounds the turns.
-/
import ApiTypings.Query.Term
import ApiTypings.Query.Token

namespace ApiTypings.Query

namespace Parser

/-- The words that are no names of filters. -/
def keywords : List String :=
  ["include", "import", "def", "as", "label", "break", "if", "then", "elif", "else", "end", "or",
    "and", "reduce", "foreach", "try", "catch"]

/-- An operator between two filters. -/
structure Infix where
  /-- how tightly it binds -/
  level : Nat
  /-- whether of several in a row the last binds tightest -/
  toRight : Bool
  make : Term → Term → Term

/-- The operators, but for the pipe. -/
def infix? : Token → Option Infix
  | .symbol "," => some ⟨1, false, .comma⟩
  | .symbol "=" => some ⟨2, true, .assign⟩
  | .symbol "|=" => some ⟨2, true, .update⟩
  | .symbol "+=" => some ⟨2, true, .updateBy .add⟩
  | .symbol "-=" => some ⟨2, true, .updateBy .subtract⟩
  | .symbol "*=" => some ⟨2, true, .updateBy .multiply⟩
  | .symbol "/=" => some ⟨2, true, .updateBy .divide⟩
  | .symbol "%=" => some ⟨2, true, .updateBy .remainder⟩
  | .symbol "//=" => some ⟨2, true, .updateAlternative⟩
  | .symbol "//" => some ⟨3, true, .alternative⟩
  | .word "or" => some ⟨4, false, .either⟩
  | .word "and" => some ⟨5, false, .both⟩
  | .symbol "==" => some ⟨6, false, .compare .equal⟩
  | .symbol "!=" => some ⟨6, false, .compare .notEqual⟩
  | .symbol "<" => some ⟨7, false, .compare .less⟩
  | .symbol "<=" => some ⟨7, false, .compare .lessOrEqual⟩
  | .symbol ">" => some ⟨7, false, .compare .greater⟩
  | .symbol ">=" => some ⟨7, false, .compare .greaterOrEqual⟩
  | .symbol "+" => some ⟨8, false, .calculate .add⟩
  | .symbol "-" => some ⟨8, false, .calculate .subtract⟩
  | .symbol "*" => some ⟨9, false, .calculate .multiply⟩
  | .symbol "/" => some ⟨9, false, .calculate .divide⟩
  | .symbol "%" => some ⟨10, false, .calculate .remainder⟩
  | _ => none

/-- What follows a symbol. -/
def afterSymbol? (text : String) : List Token → Option (List Token)
  | .symbol found :: rest => if found = text then some rest else none
  | _ => none

/-- What follows a keyword. -/
def afterWord? (word : String) : List Token → Option (List Token)
  | .word found :: rest => if found = word then some rest else none
  | _ => none

/-- A string without filters in it. -/
def literal (text : String) : Term := .string none (if text = "" then [] else [.text text])

/-- Skips question marks, and tells whether there were any. -/
def skipQuestionMarks : List Token → Bool × List Token
  | .symbol "?" :: rest => (true, (skipQuestionMarks rest).2)
  | rest => (false, rest)

/-- The names of parameters up to the closing bracket. -/
def parameters : List Token → Option (List Parameter × List Token)
  | .word name :: .symbol ")" :: rest => some ([.filter name], rest)
  | .variable name :: .symbol ")" :: rest => some ([.value name], rest)
  | .word name :: .symbol ";" :: rest =>
    (parameters rest).map fun (more, rest) => (.filter name :: more, rest)
  | .variable name :: .symbol ";" :: rest =>
    (parameters rest).map fun (more, rest) => (.value name :: more, rest)
  | _ => none

mutual
/-- A filter. Where `comma` does not hold, a comma ends it. -/
def term : Nat → Bool → List Token → Option (Term × List Token)
  | 0, _, _ => none
  | turns + 1, comma, tokens => do
    let (left, rest) ← atom turns tokens
    climb turns comma 0 left rest

/-- Goes on with the operators behind `left` that bind at least as tightly as `level`. -/
def climb : Nat → Bool → Nat → Term → List Token → Option (Term × List Token)
  | 0, _, _, _, _ => none
  | turns + 1, comma, level, left, tokens =>
    match tokens with
    | [] => some (left, [])
    | .word "as" :: rest => do
      if level ≠ 0 then return (left, tokens)
      let (pattern, rest) ← pattern turns rest
      let (body, rest) ← term turns comma (← afterSymbol? "|" rest)
      return (.bind left pattern body, rest)
    | .symbol "|" :: rest => do
      if level ≠ 0 then return (left, tokens)
      let (right, rest) ← term turns comma rest
      return (.pipe left right, rest)
    | token :: rest =>
      match infix? token with
      | none => some (left, tokens)
      | some op => do
        if op.level < level || (op.level = 1 && !comma) then return (left, tokens)
        let (right, rest) ← atom turns rest
        let (right, rest) ← climb turns comma (if op.toRight then op.level else op.level + 1) right rest
        climb turns comma level (op.make left right) rest

/-- An operand: a filter with the steps behind it. -/
def atom : Nat → List Token → Option (Term × List Token)
  | 0, _ => none
  | turns + 1, tokens => do
    let (root, rest) ← primary turns tokens
    let (lenient, rest) := skipQuestionMarks rest
    let root := if lenient then .attempt root none else root
    let (links, rest) ← links turns rest
    return (if links.isEmpty then root else .path root links, rest)

/-- A filter without steps behind it. -/
def primary : Nat → List Token → Option (Term × List Token)
  | 0, _ => none
  | turns + 1, tokens =>
    match tokens with
    | .symbol "-" :: rest => (atom turns rest).map fun (t, rest) => (.negative t, rest)
    | .symbol ".." :: rest => some (.everything, rest)
    | .symbol "." :: .string _ :: _ => some (.input, tokens)
    | .symbol "." :: rest => some (.input, rest)
    | .field _ :: _ => some (.input, tokens)
    | .number text :: rest => some (.number text, rest)
    | .variable name :: rest => some (.variable name, rest)
    | .string parts :: rest => do return (.string none (← fragments turns parts), rest)
    | .format name :: .string parts :: rest => do
      return (.string (some name) (← fragments turns parts), rest)
    | .format name :: rest => some (.call ("@" ++ name) [], rest)
    | .symbol "(" :: rest => do
      let (inner, rest) ← term turns true rest
      return (inner, ← afterSymbol? ")" rest)
    | .symbol "[" :: .symbol "]" :: rest => some (.array none, rest)
    | .symbol "[" :: rest => do
      let (inner, rest) ← term turns true rest
      return (.array inner, ← afterSymbol? "]" rest)
    | .symbol "\x7b" :: .symbol "\x7d" :: rest => some (.object [], rest)
    | .symbol "\x7b" :: rest => (entries turns rest).map fun (es, rest) => (.object es, rest)
    | .word "def" :: rest => do
      let (definition, rest) ← definition turns rest
      let (body, rest) ← term turns true rest
      return (.define definition body, rest)
    | .word "if" :: rest => branches turns rest
    | .word "try" :: rest => do
      let (body, rest) ← atom turns rest
      match afterWord? "catch" rest with
      | none => return (.attempt body none, rest)
      | some rest =>
        let (handler, rest) ← atom turns rest
        return (.attempt body handler, rest)
    | .word "label" :: .variable name :: rest => do
      let (body, rest) ← term turns true (← afterSymbol? "|" rest)
      return (.label name body, rest)
    | .word "break" :: .variable name :: rest => some (.leave name, rest)
    | .word "reduce" :: rest => do
      let (source, rest) ← atom turns rest
      let (pattern, rest) ← pattern turns (← afterWord? "as" rest)
      let (arguments, rest) ← arguments turns (← afterSymbol? "(" rest)
      match arguments with
      | [start, step] => return (.reduce source pattern start step, rest)
      | wrong => return (.call "reduce" wrong, rest)
    | .word "foreach" :: rest => do
      let (source, rest) ← atom turns rest
      let (pattern, rest) ← pattern turns (← afterWord? "as" rest)
      let (arguments, rest) ← arguments turns (← afterSymbol? "(" rest)
      match arguments with
      | [start, step] => return (.foreach source pattern start step none, rest)
      | [start, step, project] => return (.foreach source pattern start step project, rest)
      | wrong => return (.call "foreach" wrong, rest)
    | .word name :: rest =>
      if keywords.contains name then none
      else match afterSymbol? "(" rest with
        | none => some (.call name [], rest)
        | some rest =>
          (arguments turns rest).map fun (arguments, rest) => (.call name arguments, rest)
    | _ => none

/-- Filters with semicolons between them, up to the closing bracket. -/
def arguments : Nat → List Token → Option (List Term × List Token)
  | 0, _ => none
  | turns + 1, tokens => do
    let (first, rest) ← term turns true tokens
    match afterSymbol? ")" rest with
    | some rest => return ([first], rest)
    | none =>
      let (more, rest) ← arguments turns (← afterSymbol? ";" rest)
      return (first :: more, rest)

/-- The branches behind `if` or `elif`. -/
def branches : Nat → List Token → Option (Term × List Token)
  | 0, _ => none
  | turns + 1, tokens => do
    let (condition, rest) ← term turns true tokens
    let (positive, rest) ← term turns true (← afterWord? "then" rest)
    match rest with
    | .word "end" :: rest => return (.branch condition positive none, rest)
    | .word "elif" :: rest =>
      let (negative, rest) ← branches turns rest
      return (.branch condition positive negative, rest)
    | .word "else" :: rest =>
      let (negative, rest) ← term turns true rest
      return (.branch condition positive negative, ← afterWord? "end" rest)
    | _ => none

/-- The parts of a string. -/
def fragments : Nat → List (String ⊕ List Token) → Option (List Fragment)
  | 0, _ => none
  | _ + 1, [] => some []
  | turns + 1, .inl text :: parts => do return .text text :: (← fragments turns parts)
  | turns + 1, .inr tokens :: parts => do
    let (inner, rest) ← term turns true tokens
    guard rest.isEmpty
    return .filter inner :: (← fragments turns parts)

/-- The steps behind a filter. -/
def links : Nat → List Token → Option (List Link × List Token)
  | 0, _ => none
  | turns + 1, tokens =>
    let more (link : Bool → Link) (rest : List Token) : Option (List Link × List Token) := do
      let (lenient, rest) := skipQuestionMarks rest
      let (others, rest) ← links turns rest
      return (link lenient :: others, rest)
    match tokens with
    | .field name :: rest => more (.index (literal name)) rest
    | .symbol "." :: .string parts :: rest => do
      more (.index (.string none (← fragments turns parts))) rest
    | .symbol "." :: .symbol "[" :: rest | .symbol "[" :: rest =>
      match rest with
      | .symbol "]" :: rest => more (.slice none none) rest
      | .symbol ":" :: rest => do
        let (stop, rest) ← term turns true rest
        more (.slice none stop) (← afterSymbol? "]" rest)
      | rest => do
        let (start, rest) ← term turns true rest
        match rest with
        | .symbol "]" :: rest => more (.index start) rest
        | .symbol ":" :: .symbol "]" :: rest => more (.slice start none) rest
        | .symbol ":" :: rest =>
          let (stop, rest) ← term turns true rest
          more (.slice start stop) (← afterSymbol? "]" rest)
        | _ => none
    | tokens => some ([], tokens)

/-- The entries of an object, at least one. -/
def entries : Nat → List Token → Option (List Entry × List Token)
  | 0, _ => none
  | turns + 1, tokens => do
    let (entry, rest) ← entry turns tokens
    match rest with
    | .symbol "\x7d" :: rest => return ([entry], rest)
    | .symbol "," :: rest =>
      let (more, rest) ← entries turns rest
      return (entry :: more, rest)
    | _ => none

/-- An entry of an object. -/
def entry : Nat → List Token → Option (Entry × List Token)
  | 0, _ => none
  | turns + 1, tokens => do
    let (key, rest, short) ← match tokens with
      | .variable name :: rest => some (.variable name, rest, some (Entry.mk (literal name) (some (.variable name))))
      | .word name :: rest => some (literal name, rest, some (.mk (literal name) none))
      | .string parts :: rest => do
        let key := Term.string none (← fragments turns parts)
        some (key, rest, some (.mk key none))
      | .format name :: .string parts :: rest => do
        let key := Term.string (some name) (← fragments turns parts)
        some (key, rest, some (.mk key none))
      | .symbol "(" :: rest => do
        let (key, rest) ← term turns true rest
        some (key, ← afterSymbol? ")" rest, none)
      | _ => none
    match afterSymbol? ":" rest with
    | some rest =>
      let (value, rest) ← term turns false rest
      return (.mk key (some value), rest)
    | none => short.map fun entry => (entry, rest)

/-- A pattern. -/
def pattern : Nat → List Token → Option (Pattern × List Token)
  | 0, _ => none
  | turns + 1, tokens =>
    match tokens with
    | .variable name :: rest => some (.variable name, rest)
    | .symbol "[" :: rest => (patterns turns rest).map fun (ps, rest) => (.array ps, rest)
    | .symbol "\x7b" :: rest => (patternEntries turns rest).map fun (es, rest) => (.object es, rest)
    | _ => none

/-- The patterns of an array, at least one. -/
def patterns : Nat → List Token → Option (List Pattern × List Token)
  | 0, _ => none
  | turns + 1, tokens => do
    let (first, rest) ← pattern turns tokens
    match rest with
    | .symbol "]" :: rest => return ([first], rest)
    | .symbol "," :: rest =>
      let (more, rest) ← patterns turns rest
      return (first :: more, rest)
    | _ => none

/-- The entries of a pattern for objects, at least one. -/
def patternEntries : Nat → List Token → Option (List PatternEntry × List Token)
  | 0, _ => none
  | turns + 1, tokens => do
    let (key, rest) ← match tokens with
      | .variable name :: rest => some (literal name, rest)
      | .word name :: rest => some (literal name, rest)
      | .string parts :: rest => do some (.string none (← fragments turns parts), rest)
      | .symbol "(" :: rest => do
        let (key, rest) ← term turns true rest
        some (key, ← afterSymbol? ")" rest)
      | _ => none
    let (found, rest) ← match afterSymbol? ":" rest, tokens with
      | some rest, .variable name :: _ => do
        let (inner, rest) ← pattern turns rest
        some ([.mk key (.variable name), .mk key inner], rest)
      | some rest, _ => do
        let (inner, rest) ← pattern turns rest
        some ([PatternEntry.mk key inner], rest)
      | none, .variable name :: _ => some ([.mk key (.variable name)], rest)
      | none, _ => none
    match rest with
    | .symbol "\x7d" :: rest => return (found, rest)
    | .symbol "," :: rest =>
      let (more, rest) ← patternEntries turns rest
      return (found ++ more, rest)
    | _ => none

/-- A definition behind its keyword. -/
def definition : Nat → List Token → Option (Definition × List Token)
  | 0, _ => none
  | turns + 1, tokens => do
    let (name, rest) ← match tokens with
      | .word name :: rest => if keywords.contains name then none else some (name, rest)
      | .format name :: rest => some ("@" ++ name, rest)
      | _ => none
    let (parameters, rest) ← match afterSymbol? "(" rest with
      | some rest => parameters rest
      | none => some ([], rest)
    let (body, rest) ← term turns true (← afterSymbol? ":" rest)
    return (.mk name parameters body, ← afterSymbol? ";" rest)
end

/-- A text has at most as many tokens as characters. -/
def turnsFor (text : String) : Nat := 8 * (text.length + 1)

end Parser

/-- The filter that a text spells. -/
def Term.ofText? (text : String) : Option Term := do
  let tokens ← Token.ofText? text
  let (result, rest) ← Parser.term (Parser.turnsFor text) true tokens
  guard rest.isEmpty
  return result

/-- Definitions up to the end of the tokens. -/
def Definition.allOf? : Nat → List Token → Option (List Definition)
  | _, [] => some []
  | 0, _ => none
  | turns + 1, .word "def" :: rest => do
    let (definition, rest) ← Parser.definition turns rest
    return definition :: (← allOf? turns rest)
  | _, _ => none

/-- The definitions that a text consists of. -/
def Definition.listOfText? (text : String) : Option (List Definition) := do
  allOf? (Parser.turnsFor text) (← Token.ofText? text)

end ApiTypings.Query
