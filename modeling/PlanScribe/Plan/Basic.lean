import PlanScribe.Build.Block
import PlanScribe.Storage.Destination

/-!
# Plans

A plan describes one module: its imports and top-level statements, its globals, functions and
classes, and how the file is to be written. Bodies are trees of statements.
-/
namespace PlanScribe

/-- A named place with an annotation, which may be empty. -/
structure ValueDef where
  name : String
  annotation : String := ""
deriving DecidableEq, Repr

def ValueDef.slot (value : ValueDef) : Slot := .named value.name value.annotation

mutual

/-- One entry of a body. -/
inductive Statement
  | line (text : String)
  | cond (condition : String) (body : List Statement) (branches : List Branch)
      (otherwise : Option (List Statement))
  | loop (head : Loop) (body : List Statement)
  | assign (target : ValueDef) (value : String)

/-- A further condition of a conditional, with its suite. -/
structure Branch where
  condition : String
  body : List Statement

end

/-- The names that a loop binds. -/
def Loop.boundNames : Loop → List String
  | whileTrue _ => []
  | range counter _ _ => [counter]
  | enumerate index item _ => [index, item]

namespace Statement

/-- The names that the statement itself binds, not those inside its bodies. -/
def boundNames : Statement → List String
  | line _ | cond .. => []
  | loop head _ => head.boundNames
  | assign target _ => [target.name]

/-- The bodies nested in the statement, in the order in which they are written. -/
def bodies : Statement → List (List Statement)
  | line _ | assign .. => []
  | loop _ body => [body]
  | cond _ body branches otherwise => body :: branches.map Branch.body ++ otherwise.toList

end Statement

mutual

/-- The names bound by the statement, then those bound in its bodies. -/
def Statement.allBound : Statement → List String
  | .line _ => []
  | .assign target _ => [target.name]
  | .loop head body => head.boundNames ++ allBoundIn body
  | .cond _ body branches otherwise =>
    allBoundIn body ++ allBoundInBranches branches ++ allBoundInOtherwise otherwise
termination_by structural statement => statement

/-- The names bound anywhere in a body, outer ones before inner ones. -/
def allBoundIn : List Statement → List String
  | [] => []
  | statement :: rest => statement.allBound ++ allBoundIn rest
termination_by structural body => body

def allBoundInBranches : List Branch → List String
  | [] => []
  | ⟨_, body⟩ :: rest => allBoundIn body ++ allBoundInBranches rest
termination_by structural branches => branches

def allBoundInOtherwise : Option (List Statement) → List String
  | none => []
  | some body => allBoundIn body
termination_by structural body => body

end

/-- The settings of the output file. -/
structure DocumentConfig where
  indent : Option UInt8 := none
  tabs : Bool := false
  overwrite : Overwrite := .always
  header : Option String := none
deriving DecidableEq, Repr

structure FromImport where
  moduleName : String
  symbols : List String
deriving DecidableEq, Repr

structure GlobalDef where
  name : String
  annotation : String := ""
  value : String
deriving DecidableEq, Repr

structure FunctionDef where
  name : String
  doc : Option String := none
  params : List ValueDef := []
  returns : List ValueDef := []
  body : List Statement := []

structure ClassDef where
  name : String
  doc : String := ""
  fields : List ValueDef := []
  init : List Statement := []
  methods : List FunctionDef := []

/-- The description of one module. -/
structure Plan where
  document : DocumentConfig := {}
  imports : List String := []
  fromImports : List FromImport := []
  expressions : List String := []
  globals : List GlobalDef := []
  functions : List FunctionDef := []
  classes : List ClassDef := []

namespace Plan

/-- The first function of the given name. -/
def function? (plan : Plan) (name : String) : Option FunctionDef :=
  plan.functions.find? fun f => f.name == name

/-- The first class of the given name. -/
def class? (plan : Plan) (name : String) : Option ClassDef :=
  plan.classes.find? fun c => c.name == name

end Plan

end PlanScribe
