import PlanScribe.Plan.Schema
import PlanScribe.Plan.Check
import PlanScribe.Plan.Lower
import PlanScribe.Tree.Json
import PlanScribe.Tree.Toml.Reader

/-!
# Plan files

A plan file is read as JSON if its extension is `json` in any case, and as TOML otherwise. The plan
is checked when it is loaded.
-/
namespace PlanScribe

namespace Format

/-- The format of the file at a path. -/
def ofPath (path : Path) : Format :=
  match path.extension? with
  | some extension => if extension.toLower = "json" then .json else .toml
  | none => .toml

/-- The tree that is written in a text. -/
def read? : Format → String → Option Tree
  | toml, text => Toml.read text
  | json, text => Json.read text

/-- The error for a text that describes no plan. -/
def malformed (filename : String) : Format → PlanError
  | toml => .malformedToml filename
  | json => .malformedJson filename none

end Format

namespace Plan

/-- The plan that a text describes, checked or not. -/
def parse (format : Format) (source : Source) : Except PlanError Plan :=
  match (format.read? source.text).bind (Schema.plan format) with
  | some plan => .ok plan
  | none => .error (format.malformed source.filename)

/-- The plan that a text describes, if it breaks no rule. -/
def load (format : Format) (source : Source) : Except PlanError Plan :=
  match parse format source with
  | .error e => .error e
  | .ok plan =>
    match plan.validate source with
    | .error e => .error e
    | .ok () => .ok plan

end Plan

/-- A plan together with the file it was loaded from. -/
structure PlanFile where
  path : Path
  content : String
  plan : Plan

namespace PlanFile

/-- Loads a plan from the bytes of the file at a path, which are missing if it cannot be read. -/
def ofBytes (path : Path) (bytes : Option Bytes) : Except PlanError PlanFile :=
  match bytes.bind decodeText? with
  | none => .error (.unreadable path)
  | some content =>
    (Plan.load (Format.ofPath path) { text := content, filename := path }).map fun plan =>
      { path, content, plan }

/-- Loads the plan file at a path. -/
def load (tree : FileTree) (path : Path) : Except PlanError PlanFile :=
  ofBytes path (tree.read? path)

/-- Where the output goes unless another file is named: beside the plan, with the extension of a
Python file. -/
def defaultOutput (file : PlanFile) : Path := file.path.withExtension "py"

end PlanFile

end PlanScribe
