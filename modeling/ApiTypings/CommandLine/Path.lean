/-
Paths as text.

A path is read in segments between slashes.  An empty segment and a dot stand for nothing,
but a path may begin with a slash, its root, or with a dot.
-/
namespace ApiTypings.CommandLine.Path

/-- The segments between slashes. -/
def segments (path : String) : List String := path.splitOn "/"

/-- A segment that leads nowhere. -/
def isBlank (segment : String) : Bool := segment = "" || segment = "."

def dropBlankEnd (segments : List String) : List String :=
  (segments.reverse.dropWhile isBlank).reverse

/-- A leading root or dot, and the segments behind it. -/
def split (path : String) : String × List String :=
  match path.toList with
  | '/' :: rest => ("/", segments (String.ofList rest))
  | ['.'] => (".", [])
  | '.' :: '/' :: rest => (".", segments (String.ofList ('/' :: rest)))
  | _ => ("", segments path)

/-- The directory of a path: what is left without the last segment that leads somewhere, and
without the slashes and dots before it. -/
def directory (path : String) : String :=
  let (start, segments) := split path
  match dropBlankEnd segments with
  | [] => ""
  | segments => start ++ "/".intercalate (dropBlankEnd segments.dropLast)

/-- A name below a directory. -/
def join (directory name : String) : String :=
  if directory = "" || directory.toList.getLast? = some '/' then directory ++ name
  else directory ++ "/" ++ name

end ApiTypings.CommandLine.Path
