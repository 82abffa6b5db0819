import PlanScribe.Document.Delivery

/-!
# Documents on files

A document for a file opens the file when it is created and fills it when it is closed. What the
file holds is at all times what the sink of the document has stored.
-/
namespace PlanScribe

/-- A document together with the file it is written to and the tree in which the file was opened. -/
structure FileDocument where
  document : Document
  tree : FileTree
  location : Option Location
  notes : List Note := []

namespace FileDocument

/-- Opens a file and starts an empty document for it. A kept file leaves the document without a
sink; the header of the rules serves where the options have none. -/
def create (tree : FileTree) (path : Path) (rules : FileRules) (options : DocumentOptions) :
    FileTree × Except BuildError FileDocument :=
  let merged := { options with header := options.header.or rules.header }
  match tree.openDestination path rules.overwrite with
  | (left, .refused) => (left, .error (.unopened path))
  | (same, .kept) =>
    let document := { Document.create merged none with target := some path }
    (same, .ok { document, tree := same, location := none, notes := [.logged .keptExistingFile] })
  | (made, .opened location) =>
    let document := { Document.create merged (some {}) with target := some path }
    (made, .ok { document, tree := made, location := some location })

/-- The files as they are with the document as far as it has come. -/
def files (fileDoc : FileDocument) : FileTree :=
  match fileDoc.location, fileDoc.document.sink with
  | some location, some sink => fileDoc.tree.put location (.file sink.stored)
  | _, _ => fileDoc.tree

end FileDocument

end PlanScribe
