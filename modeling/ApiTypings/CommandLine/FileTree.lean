/-
Files and directories.

What a run needs of them is a record of three operations, so that a run can be followed on
a tree of files that is a plain value.
-/
import ApiTypings.CommandLine.Path

namespace ApiTypings.CommandLine

/-- Access to files by their paths. -/
structure FileSystem (m : Type → Type) where
  /-- the content of a file, if it can be read and is text -/
  read : String → m (Option String)
  /-- makes a directory, and those above it, unless they are there; whether they are now -/
  makeDirectories : String → m Bool
  /-- gives a file the content; whether that worked -/
  write : String → String → m Bool

/-- The content of a file, or a directory. -/
inductive FileNode
  | file (content : ByteArray)
  | directory

/-- What there is below a directory, by the names that lead there from it. -/
structure FileTree where
  nodes : List (List String × FileNode) := []

namespace FileTree

def node? (tree : FileTree) (place : List String) : Option FileNode :=
  if place = [] then some .directory
  else (tree.nodes.find? fun entry => entry.1 == place).map (·.2)

def isDirectory (tree : FileTree) (place : List String) : Bool :=
  match tree.node? place with
  | some .directory => true
  | _ => false

/-- A later node takes the place of an earlier one. -/
def put (tree : FileTree) (place : List String) (node : FileNode) : FileTree :=
  ⟨(place, node) :: tree.nodes.filter fun entry => entry.1 != place⟩

/-- A name of a file has at most 255 bytes. -/
def isName (name : String) : Bool := name.utf8ByteSize ≤ 255 && !name.toList.contains '\x00'

/-- Where segments lead to from a place. Every one of them steps from a directory, and the tree
is never left. -/
def walk (tree : FileTree) (place : List String) : List String → Option (List String)
  | [] => some place
  | segment :: rest =>
    if !tree.isDirectory place then none
    else if Path.isBlank segment then tree.walk place rest
    else if segment = ".." then
      if place = [] then none else tree.walk place.dropLast rest
    else if isName segment then tree.walk (place ++ [segment]) rest
    else none

/-- The segments of a path that begins in the tree. -/
def segments? (path : String) : Option (List String) :=
  if path = "" || path.toList.head? = some '/' then none else some (Path.segments path)

/-- Where a path leads to. -/
def place? (tree : FileTree) (path : String) : Option (List String) :=
  (segments? path).bind (tree.walk [])

/-- The text of a file. -/
def read? (tree : FileTree) (path : String) : Option String :=
  match (tree.place? path).bind tree.node? with
  | some (.file content) => String.fromUTF8? content
  | _ => none

/-- The tree with the directories that segments name on their way from a place. -/
def makeAlong (tree : FileTree) (place : List String) : List String → Option FileTree
  | [] => some tree
  | segment :: rest =>
    if Path.isBlank segment then tree.makeAlong place rest
    else if segment = ".." then
      if place = [] then none else tree.makeAlong place.dropLast rest
    else
      let next := place ++ [segment]
      match tree.node? next with
      | some .directory => tree.makeAlong next rest
      | some (.file _) => none
      | none => if isName segment then (tree.put next .directory).makeAlong next rest else none

def makeDirectories? (tree : FileTree) (path : String) : Option FileTree :=
  (segments? path).bind (tree.makeAlong [])

def write? (tree : FileTree) (path content : String) : Option FileTree :=
  match tree.place? path with
  | some place =>
    if tree.isDirectory place then none else some (tree.put place (.file content.toUTF8))
  | none => none

/-- The tree with a file, and with the directories on the way to it. -/
def addFile (tree : FileTree) (path : String) (content : ByteArray) : FileTree :=
  let place := Path.segments path
  let directories := ((List.range place.length).drop 1).map place.take
  (directories.foldl (fun tree directory => tree.put directory .directory) tree).put place
    (.file content)

/-- A tree of files by their paths. -/
def ofFiles (files : List (String × ByteArray)) : FileTree :=
  files.foldl (fun tree (path, content) => tree.addFile path content) {}

/-- The files of a tree that another does not have, or has with another content. -/
def changedSince (tree before : FileTree) : List (String × String) :=
  tree.nodes.filterMap fun
    | (place, .file content) =>
      let isSame := match before.node? place with
        | some (.file earlier) => earlier == content
        | _ => false
      if isSame then none
      else (String.fromUTF8? content).map fun text => ("/".intercalate place, text)
    | (_, .directory) => none

/-- An operation that changes the tree if it works. -/
def attempt (operation : FileTree → Option FileTree) : StateM FileTree Bool := fun tree =>
  match operation tree with
  | some changed => (true, changed)
  | none => (false, tree)

/-- Access to a tree. -/
def fileSystem : FileSystem (StateM FileTree) where
  read path := fun tree => (tree.read? path, tree)
  makeDirectories path := attempt (·.makeDirectories? path)
  write path content := attempt (·.write? path content)

end FileTree
end ApiTypings.CommandLine
