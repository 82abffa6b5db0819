/-!
# Paths

A path is written text; its segments are separated by slashes. An empty segment and a single dot
stay in the same directory, and two dots go up to the parent.
-/
namespace PlanScribe

abbrev Path := String

namespace Path

/-- Everything between the slashes. -/
def segments (path : Path) : List String := (path.toList.splitOn '/').map String.ofList

/-- The segment stays in the same directory. -/
def staysPut (segment : String) : Bool := segment == "" || segment == "."

/-- The directories that have to exist before the path can be created, outermost first. -/
def parents (path : Path) : List Path :=
  let steps := (path.segments.filter fun segment => !staysPut segment).dropLast
  (List.range steps.length).map fun n => "/".intercalate (steps.take (n + 1))

/-- The text up to the last segment that is not a mere stay, and that segment. -/
def splitLast (path : Path) : List String × Option String :=
  match path.segments.reverse.dropWhile staysPut with
  | [] => ([], none)
  | last :: before => (before.reverse, some last)

/-- The last segment, unless it goes up to a parent. -/
def fileName? (path : Path) : Option String :=
  path.splitLast.2.filter (· != "..")

/-- A file name cut at its last dot; a name without a dot, or with one at the start alone, has no
extension. -/
def splitName (name : String) : String × Option String :=
  let reversed := name.toList.reverse
  let extension := (reversed.takeWhile (· != '.')).reverse
  match reversed.dropWhile (· != '.') with
  | [] | ['.'] => (name, none)
  | _ :: stem => (String.ofList stem.reverse, some (String.ofList extension))

def extension? (path : Path) : Option String :=
  path.fileName?.bind fun name => (splitName name).2

/-- Replaces what follows the stem of the file name; a path without a file name is kept. -/
def setExtension (path : Path) (extension : String) : Path :=
  match path.fileName? with
  | none => path
  | some name =>
    "/".intercalate (path.splitLast.1 ++ [(splitName name).1 ++ "." ++ extension])

/-- The path with its extension exchanged for another, or with one added. The old extension is cut
off first and the new one put in the place of what then is one, so of a name like `..toml` only two
dots remain. -/
def withExtension (path : Path) (extension : String) : Path :=
  match path.extension? with
  | none => path.setExtension extension
  | some old =>
    setExtension (String.ofList (path.toList.take (path.length - old.length))) extension

example : withExtension "a/b.c/d.toml" "py" = "a/b.c/d.py" := by decide
example : withExtension "..toml" "py" = ".." := by decide
example : withExtension ".toml" "py" = ".toml.py" := by decide
example : withExtension "m." "py" = "m.py" := by decide

end Path

end PlanScribe
