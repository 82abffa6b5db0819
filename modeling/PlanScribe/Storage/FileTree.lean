import PlanScribe.Storage.Bytes
import PlanScribe.Storage.Path

/-!
# File trees

The files and directories below a working directory, as a value. An entry is found by the names on
the way to it; the working directory itself is always there. A path is resolved segment by segment,
and every segment must be taken from a directory.
-/
namespace PlanScribe

/-- The names on the way from the working directory. -/
abbrev Location := List String

inductive Entry
  | file (content : Bytes)
  | directory
deriving DecidableEq, Repr

/-- The entries below the working directory, each at its location. -/
structure FileTree where
  entries : List (Location × Entry) := []
deriving DecidableEq, Repr

namespace FileTree

def entry? (tree : FileTree) (location : Location) : Option Entry :=
  if location = [] then some .directory else tree.entries.lookup location

def isDirectory (tree : FileTree) (location : Location) : Bool :=
  tree.entry? location == some .directory

/-- The tree with an entry at a location, in the place of what stood there. -/
def put (tree : FileTree) (location : Location) (entry : Entry) : FileTree :=
  ⟨(location, entry) :: tree.entries.filter fun e => e.1 != location⟩

/-- Follows segments from a directory. There is no way up from the working directory. -/
def walk (tree : FileTree) : Location → List String → Option Location
  | location, [] => some location
  | location, segment :: rest =>
    if !tree.isDirectory location then none
    else if Path.staysPut segment then tree.walk location rest
    else if segment = ".." then
      if location = [] then none else tree.walk location.dropLast rest
    else tree.walk (location ++ [segment]) rest

/-- Where a path leads, if the directories on the way exist; what it leads to need not. -/
def resolve? (tree : FileTree) (path : Path) : Option Location :=
  if path = "" || path.toList.contains '\x00' then none else tree.walk [] path.segments

/-- There is a file or a directory at the path. -/
def pathExists (tree : FileTree) (path : Path) : Bool :=
  match tree.resolve? path with
  | some location => (tree.entry? location).isSome
  | none => false

/-- The content of the file at the path. -/
def read? (tree : FileTree) (path : Path) : Option Bytes :=
  match (tree.resolve? path).bind tree.entry? with
  | some (.file content) => some content
  | _ => none

/-- Makes sure that there is a directory at a path; `none` if there cannot be one. -/
def ensureDirectory (tree : FileTree) (path : Path) : Option FileTree :=
  match tree.resolve? path with
  | none => none
  | some location =>
    match tree.entry? location with
    | some .directory => some tree
    | some (.file _) => none
    | none => some (tree.put location .directory)

/-- Makes sure of several directories in order, up to the first that there cannot be. The
directories made before stay, whether all could be made or not. -/
def ensureDirectories (tree : FileTree) : List Path → FileTree × Bool
  | [] => (tree, true)
  | path :: rest =>
    match tree.ensureDirectory path with
    | some made => made.ensureDirectories rest
    | none => (tree, false)

/-- The location of a file that can be written at the path: the path leads to no directory. -/
def writable? (tree : FileTree) (path : Path) : Option Location :=
  (tree.resolve? path).filter fun location => !tree.isDirectory location

/-- No entry stands below the location. -/
def isEmptyDirectory (tree : FileTree) (location : Location) : Bool :=
  tree.entries.all fun e => !(location.isPrefixOf e.1 && e.1 != location)

/-- Every file with its content, and every empty directory with none. -/
def listing (tree : FileTree) : List (Location × Option Bytes) :=
  tree.entries.filterMap fun (location, entry) =>
    match entry with
    | .file content => some (location, some content)
    | .directory => if tree.isEmptyDirectory location then some (location, none) else none

end FileTree

end PlanScribe
