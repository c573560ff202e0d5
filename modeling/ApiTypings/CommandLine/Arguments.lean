/-
What a user asks for.

The arguments are read one after the other.  An option that has a value and stands without
one waits for it: the next argument is the value unless it begins with a dash and more.
What waits is judged when the next option or the input comes, or at the end.  So an argument
that has no meaning is reported before a fault of the option that stands before it.
-/
import ApiTypings.CommandLine.OptionName
import ApiTypings.Settings

namespace ApiTypings.CommandLine

/-- What the options decide. -/
structure Choices where
  /-- the file of the declarations; without one they are printed -/
  output : Option String := none
  /-- where the generated imports begin -/
  importRoot : String := "./fetchtype"
  /-- the directory that the helper modules are written below -/
  helperDirectory : Option String := none
  settings : Settings := {}
  /-- a filter that the document goes through first -/
  query : Option String := none
  /-- how much is logged, at most 255 -/
  verbosity : Nat := 0
  deriving DecidableEq

/-- A document, and what is to be done with it. -/
structure Arguments extends Choices where
  /-- a path or a URL -/
  input : String
  deriving DecidableEq

/-- Why arguments are no request. -/
inductive Refusal
  /-- no such option, or a second input -/
  | unknown (argument : String)
  /-- the value of an option is missing or is none of its values -/
  | badValue (name : OptionName) (value : Option String)
  /-- a flag with a value -/
  | needlessValue (name : OptionName)
  | repeated (name : OptionName)
  | missingInput
  /-- the version is asked for instead -/
  | versionWanted
  /-- the help is asked for instead -/
  | helpWanted
  deriving DecidableEq, Repr

/-- The name and the version of the program. -/
def versionText : String := "fetchtype 0.1.0\n"

namespace OptionName

/-- An option and its purpose in the help. -/
def helpLine (name : OptionName) : String :=
  "  "
    ++ (match name.letter? with
      | some letter => "-" ++ letter.toString ++ ", "
      | none => "    ")
    ++ "--" ++ name.longName ++ "  " ++ name.purpose ++ "\n"

end OptionName

/-- The help. -/
def helpText : String :=
  "generate statically-typed \x60fetch\x60 overloads and type declarations from an OpenAPI 3.x document\n\n"
    ++ "Usage: fetchtype [OPTIONS] <INPUT>\n\nOptions:\n"
    ++ String.join (OptionName.all.map OptionName.helpLine)

namespace Refusal

def message : Refusal → String
  | unknown argument => "error: unexpected argument '" ++ argument ++ "' found\n"
  | badValue name none => "error: a value is required for '--" ++ name.longName ++ "'\n"
  | badValue name (some value) =>
    "error: invalid value '" ++ value ++ "' for '--" ++ name.longName ++ "'\n"
  | needlessValue name => "error: unexpected value for '--" ++ name.longName ++ "'\n"
  | repeated name =>
    "error: the argument '--" ++ name.longName ++ "' cannot be used multiple times\n"
  | missingInput => "error: the following required arguments were not provided:\n  <INPUT>\n"
  | versionWanted => versionText
  | helpWanted => helpText

/-- Whether the message is what the user asks for. -/
def isRequest : Refusal → Bool
  | versionWanted | helpWanted => true
  | _ => false

end Refusal

namespace Choices

/-- The choices once an option is given with its value. A path is not empty, and the texts
between commas are base URLs of their own. -/
def choose (choices : Choices) (name : OptionName) (value : Option String) :
    Except Refusal Choices :=
  let settings := choices.settings
  match name, value with
  | .output, some path =>
    if path = "" then .error (.badValue name value) else .ok { choices with output := some path }
  | .importRoot, some root => .ok { choices with importRoot := root }
  | .helperDirectory, some path =>
    if path = "" then .error (.badValue name value)
    else .ok { choices with helperDirectory := some path }
  | .baseUrls, some urls =>
    .ok { choices with settings :=
      { settings with baseUrls := settings.baseUrls ++ urls.splitOn "," } }
  | .includeServerUrls, none | .includeServerUrls, some "true" =>
    .ok { choices with settings := { settings with includeServerUrls := true } }
  | .includeServerUrls, some "false" =>
    .ok { choices with settings := { settings with includeServerUrls := false } }
  | .includeAbsoluteUrl, none =>
    .ok { choices with settings := { settings with includeAbsoluteUrl := true } }
  | .includeRelativeUrl, none =>
    .ok { choices with settings := { settings with includeRelativeUrl := true } }
  | .urlSearchParams, none =>
    .ok { choices with settings := { settings with experimentalUrlSearchParams := true } }
  | .discriminator, some text =>
    .ok { choices with settings := { settings with experimentalDiscriminator := some text } }
  | .requireDiscriminator, none =>
    .ok { choices with settings := { settings with experimentalRequireDiscriminator := true } }
  | .query, some filter => .ok { choices with query := some filter }
  | .verbosity, none => .ok { choices with verbosity := min 255 (choices.verbosity + 1) }
  | .help, none => .error .helpWanted
  | .version, none => .error .versionWanted
  | _, _ => .error (.badValue name value)

end Choices

/-- What has been read so far. -/
structure Reading where
  choices : Choices := {}
  input : Option String := none
  /-- the options whose values have been judged -/
  given : List OptionName := []
  /-- an option that is not judged yet, and its value once that has come -/
  waiting : Option (OptionName × Option String) := none
  /-- two dashes have been read, after which no argument is an option -/
  onlyInput : Bool := false

namespace Reading

/-- Judges an option: its value is there if it has to be, it is not given twice, and the value
is one of its values. -/
def judge (reading : Reading) (name : OptionName) (value : Option String) :
    Except Refusal Reading :=
  if name.arity = .always ∧ value = none then .error (.badValue name none)
  else if reading.given.contains name && !name.isRepeatable then .error (.repeated name)
  else
    match reading.choices.choose name value with
    | .ok choices => .ok { reading with choices, given := name :: reading.given }
    | .error refusal => .error refusal

/-- Judges the option that waits. -/
def settle (reading : Reading) : Except Refusal Reading :=
  match reading.waiting with
  | none => .ok reading
  | some (name, value) => { reading with waiting := none }.judge name value

/-- Reads the input, which there is only one of. -/
def acceptInput (reading : Reading) (argument : String) : Except Refusal Reading :=
  match reading.input with
  | some _ => .error (.unknown argument)
  | none => do return { ← reading.settle with input := some argument }

/-- Reads an option with the value that is attached to it. A flag is judged at once, and so is
an attached value. -/
def acceptOption (reading : Reading) (name : OptionName) (attached : Option String) :
    Except Refusal Reading :=
  match name.arity, attached with
  | .never, some _ => .error (.needlessValue name)
  | .never, none => do (← reading.settle).judge name none
  | _, some value => do (← reading.settle).judge name (some value)
  | _, none => do return { ← reading.settle with waiting := some (name, none) }

/-- Reads what stands after two dashes: a name, and a value after the first equals sign. -/
def acceptLong (reading : Reading) (text : List Char) : Except Refusal Reading :=
  let name := String.ofList (text.takeWhile (· ≠ '='))
  match OptionName.ofLongName? name, text.dropWhile (· ≠ '=') with
  | none, _ => .error (.unknown ("--" ++ name))
  | some name, _ :: value => reading.acceptOption name (some (String.ofList value))
  | some name, [] => reading.acceptOption name none

/-- Reads the letters after one dash: flags, and at last an option that has a value, with the
rest as that value. -/
def acceptLetters (reading : Reading) : List Char → Except Refusal Reading
  | [] => .ok reading
  | letter :: rest =>
    match OptionName.ofLetter? letter with
    | none => .error (.unknown ("-" ++ letter.toString))
    | some name =>
      if name.arity = .never then do (← reading.acceptOption name none).acceptLetters rest
      else
        match rest with
        | [] => reading.acceptOption name none
        | '=' :: value => reading.acceptOption name (some (String.ofList value))
        | value => reading.acceptOption name (some (String.ofList value))

/-- Reads one argument. -/
def accept (reading : Reading) (argument : String) : Except Refusal Reading :=
  if reading.onlyInput then reading.acceptInput argument
  else
    match argument.toList with
    | ['-', '-'] => .ok { reading with onlyInput := true }
    | '-' :: '-' :: text => reading.acceptLong text
    | '-' :: letter :: letters => reading.acceptLetters (letter :: letters)
    | _ =>
      match reading.waiting with
      | some (name, none) => .ok { reading with waiting := some (name, some argument) }
      | _ => reading.acceptInput argument

/-- Reads all arguments. -/
def acceptAll (reading : Reading) : List String → Except Refusal Arguments
  | [] => do
    let reading ← reading.settle
    match reading.input with
    | some input => return { reading.choices with input }
    | none => throw .missingInput
  | argument :: rest => do (← reading.accept argument).acceptAll rest

end Reading

/-- The request that arguments make. -/
def Arguments.ofList (arguments : List String) : Except Refusal Arguments :=
  Reading.acceptAll {} arguments

end ApiTypings.CommandLine
