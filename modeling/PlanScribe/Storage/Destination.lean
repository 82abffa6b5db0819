import PlanScribe.Storage.FileTree

/-!
# Destinations

Output files are opened under a rule for files that already exist. Opening a file empties it, and
makes the directories that are missing on the way to it.
-/
namespace PlanScribe

/-- What to do about an existing output file. -/
inductive Overwrite
  | always
  | ifMissing
deriving DecidableEq, Repr

instance : Inhabited Overwrite := ⟨.always⟩

/-- How an output file is opened, and the comment at its top. -/
structure FileRules where
  overwrite : Overwrite := .always
  header : Option String := none
deriving DecidableEq, Repr

/-- Whether output was written or an existing file kept. -/
inductive WriteResult
  | written
  | skipped
deriving DecidableEq, Repr

/-- What came of opening a destination. -/
inductive Opening
  | kept
  | opened (location : Location)
  | refused
deriving DecidableEq, Repr

namespace FileTree

/-- Opens the file at a path for writing. No directory is made for a path that has a NUL character
before its last segment. -/
def openDestination (tree : FileTree) (path : Path) (overwrite : Overwrite) :
    FileTree × Opening :=
  if overwrite = .ifMissing && tree.pathExists path then (tree, .kept)
  else if path.parents.any (·.toList.contains '\x00') then (tree, .refused)
  else
    match tree.ensureDirectories path.parents with
    | (made, false) => (made, .refused)
    | (made, true) =>
      match made.writable? path with
      | none => (made, .refused)
      | some location => (made.put location (.file []), .opened location)

/-- Writes a whole file; `none` if the destination cannot be opened. -/
def writeDestination (tree : FileTree) (path : Path) (overwrite : Overwrite) (content : Bytes) :
    FileTree × Option WriteResult :=
  match tree.openDestination path overwrite with
  | (same, .kept) => (same, some .skipped)
  | (made, .refused) => (made, none)
  | (made, .opened location) => (made.put location (.file content), some .written)

end FileTree

end PlanScribe
