/-
A run: from the arguments to the files that it writes.

A run reads the document, generates its declarations, prints or writes them, and writes the
helper modules if they are asked for.  The first problem ends it; what has been written
until then stays written, and what has been reported stays reported.
-/
import ApiTypings.CommandLine.Arguments
import ApiTypings.CommandLine.FileTree
import ApiTypings.Generation
import ApiTypings.Query.Basic
import ApiTypings.SourceText

namespace ApiTypings.CommandLine

/-- What ends a run. -/
inductive Problem
  /-- a URL cannot be fetched -/
  | notFetched (url : String)
  | unreadable (path : String)
  | notParsed (input : String) (cause : SourceText.Problem)
  | notFiltered (input : String) (cause : Query.Problem)
  | invalidDocument (input : String) (cause : Failure)
  | notGenerated (cause : Failure)
  | noDirectory (path : String)
  | notWritten (path : String)

namespace Problem

def message : Problem → String
  | notFetched url => "failed to fetch " ++ url
  | unreadable path => "failed to read source file " ++ path
  | notParsed input _ => "failed to parse " ++ input
  | notFiltered input _ => "failed to apply jq expression to " ++ input
  | invalidDocument input _ => "invalid OpenAPI document " ++ input
  | notGenerated cause => cause.message
  | noDirectory path => "failed to create directory " ++ path
  | notWritten path => "failed to write " ++ path

/-- The message with that of its cause, if there is one. -/
def fullMessage (problem : Problem) : String :=
  problem.message
    ++ (match problem with
      | notParsed _ cause => ": " ++ cause.message
      | notFiltered _ cause => ": " ++ cause.message
      | invalidDocument _ cause => ": " ++ cause.message
      | _ => "")

/-- The failure of the generation that is behind a problem. -/
def failure? : Problem → Option Failure
  | invalidDocument _ cause | notGenerated cause => some cause
  | _ => none

end Problem

/-- What a run tells. -/
structure Report where
  /-- what is printed -/
  standardOutput : String := ""
  /-- a line for every step that is done -/
  progress : List String := []
  warnings : List Warning := []
  /-- what ended the run early -/
  problem : Option Problem := none

/-- A part of a run over some access to files. -/
abbrev Run (m : Type → Type) := ExceptT Problem (StateT Report m)

namespace Run

variable {m : Type → Type} [Monad m]

/-- Reports a step that is done. -/
def progress (line : String) : Run m Unit :=
  modify fun report => { report with progress := report.progress ++ [line] }

/-- Ends the run if an operation did not work. -/
def require (operation : m Bool) (problem : Problem) : Run m Unit := do
  if !(← (monadLift operation : Run m Bool)) then throw problem

def makeDirectories (files : FileSystem m) (path : String) : Run m Unit :=
  require (files.makeDirectories path) (.noDirectory path)

def write (files : FileSystem m) (path content : String) : Run m Unit :=
  require (files.write path content) (.notWritten path)

/-- Whether an input is to be fetched. Nothing is fetched here. -/
def isRemote (input : String) : Bool :=
  ["http://", "https://"].any fun scheme => scheme.toList.isPrefixOf input.toList

/-- The path of an input, which may be written as a URL of a file. -/
def pathOf (input : String) : String :=
  let scheme := "file://".toList
  if scheme.isPrefixOf input.toList then String.ofList (input.toList.drop scheme.length) else input

/-- The text of an input. -/
def readInput (files : FileSystem m) (input : String) : Run m String := do
  if isRemote input then throw (.notFetched input)
  let path := pathOf input
  match ← (monadLift (files.read path) : Run m (Option String)) with
  | some text => return text
  | none => throw (.unreadable path)

/-- The document that a text describes, once it has gone through the filter. -/
def documentOf (arguments : Arguments) (text : String) : Except Problem OpenApi.Document := do
  let value ← (SourceText.read text).mapError (.notParsed arguments.input)
  let value ← match arguments.query with
    | some filter => (Query.transform filter value).mapError (.notFiltered arguments.input)
    | none => pure value
  (OpenApi.Document.ofJson value).mapError (.invalidDocument arguments.input)

/-- Writes the declarations to a file, whose directory is made if it has to be. -/
def writeDeclarations (files : FileSystem m) (path source : String) : Run m Unit := do
  let directory := Path.directory path
  if directory != "" then makeDirectories files directory
  write files path source
  progress ("Written to " ++ path)

/-- Writes the helper modules below a directory. -/
def writeHelpers (files : FileSystem m) (directory : String) : Run m Unit := do
  let directory := Path.join directory "types"
  makeDirectories files directory
  for module in HelperModule.all do
    write files (Path.join directory (module.name ++ ".ts")) module.source
  progress (toString HelperModule.all.length ++ " helper modules written to " ++ directory)

/-- What the arguments ask for. -/
def perform (files : FileSystem m) (arguments : Arguments) (now : Timestamp) : Run m Unit := do
  let text ← readInput files arguments.input
  let document ← documentOf arguments text
  progress "Schema resolved"
  let generated ← (Generated.ofDocument document arguments.settings arguments.importRoot now).mapError
    Problem.notGenerated
  progress (toString generated.file.globalScope.functions.length ++ " fetch overloads and "
    ++ toString generated.file.moduleScope.aliases.length ++ " component types generated")
  modify fun report => { report with warnings := generated.warnings }
  let source := generated.file.render
  match arguments.output with
  | some path => writeDeclarations files path source
  | none => modify fun report => { report with standardOutput := source }
  if let some directory := arguments.helperDirectory then writeHelpers files directory

end Run

/-- Runs the arguments at a point in time. -/
def Arguments.run {m : Type → Type} [Monad m] (arguments : Arguments) (files : FileSystem m)
    (now : Timestamp) : m Report := do
  match ← (Run.perform files arguments now).run.run {} with
  | (.ok (), report) => return report
  | (.error problem, report) => return { report with problem := some problem }

end ApiTypings.CommandLine
