import PlanScribe.Plan.Basic
import PlanScribe.Plan.Diagnostic

/-!
# Checking a plan

A plan is checked in the order of its declarations: the indentation, then the globals, the functions
and the classes, each with what it contains. Every broken rule is listed; the first in this order is
the one reported.
-/
namespace PlanScribe

/-- A place in a plan: its source and the names of the items around it, outer ones first. -/
structure Place where
  source : Source
  path : List String := []

namespace Place

def push (place : Place) (segment : String) : Place :=
  { place with path := place.path ++ [segment] }

/-- The names of the items around the place, joined by dots. -/
def pathText (place : Place) : String := ".".intercalate place.path

/-- The kind of a name together with the place where it stands. -/
def contextFor (place : Place) (kind : String) : String :=
  if place.path = [] then kind else kind ++ " in '" ++ place.pathText ++ "'"

/-- An error that points to a name. -/
def flawAt (place : Place) (flaw : Flaw) (name : String) : PlanError :=
  .flawed place.source.filename (place.source.nameSpan? name) flaw

/-- An error that points to a key. -/
def flawAtKey (place : Place) (flaw : Flaw) (key : String) : PlanError :=
  .flawed place.source.filename (place.source.keySpan? key) flaw

/-- What is wrong with a name of the given kind. -/
def nameError? (place : Place) (name kind : String) : Option PlanError :=
  let filename := place.source.filename
  let span := place.source.nameSpan? name
  (nameFault? name).map fun
    | .reserved => .reservedName filename span name (place.contextFor kind)
    | fault => .invalidName filename span name (place.contextFor kind) fault

/-- The error in a list, if the rule is broken. -/
def errorIf (broken : Bool) (e : PlanError) : List PlanError := if broken then [e] else []

/-- Checks the names of a list of a kind; further errors may hang on the names before. -/
def checkNames (place : Place) (kind : String)
    (more : (earlier : List String) → (name : String) → List PlanError) :
    (earlier names : List String) → List PlanError
  | _, [] => []
  | earlier, name :: rest =>
    (place.nameError? name kind).toList ++ more earlier name
      ++ place.checkNames kind more (earlier ++ [name]) rest

/-- Checks the names that a body binds, at any depth. -/
def checkBody (place : Place) (body : List Statement) : List PlanError :=
  place.checkNames "variable" (fun _ _ => []) [] (allBoundIn body)

/-- Checks the parameters, return values and body of a function or method. -/
def checkFunction (place : Place) (isMethod : Bool) (f : FunctionDef) : List PlanError :=
  place.checkNames "parameter"
    (fun earlier name =>
      errorIf (isMethod && name == receiverName)
          (place.flawAt (.receiverParameter place.pathText) name)
        ++ errorIf (earlier.contains name)
          (place.flawAt (.repeatedParameter name place.pathText) name))
    [] (f.params.map ValueDef.name)
  ++ place.checkNames "return value" (fun _ _ => []) [] (f.returns.map ValueDef.name)
  ++ place.checkBody f.body

/-- Checks the fields, constructor statements and methods of a class. -/
def checkClass (place : Place) (c : ClassDef) : List PlanError :=
  place.checkNames "field"
    (fun earlier name =>
      errorIf (name == receiverName) (place.flawAt (.receiverField place.pathText) name)
        ++ errorIf (earlier.contains name)
          (place.flawAt (.repeatedField name place.pathText) name))
    [] (c.fields.map ValueDef.name)
  ++ place.checkBody c.init
  ++ c.methods.flatMap fun f =>
    (place.nameError? f.name "method").toList ++ (place.push f.name).checkFunction true f

/-- Checks the classes of a plan, whose names must differ. -/
def checkClasses (place : Place) : (earlier : List String) → List ClassDef → List PlanError
  | _, [] => []
  | earlier, c :: rest =>
    (place.nameError? c.name "class").toList
      ++ errorIf (earlier.contains c.name) (place.flawAt (.repeatedClass c.name) c.name)
      ++ (place.push c.name).checkClass c
      ++ place.checkClasses (earlier ++ [c.name]) rest

/-- Checks the width of the indentation, which matters only without tabs. -/
def checkIndent (place : Place) (config : DocumentConfig) : List PlanError :=
  match config.indent with
  | none => []
  | some width =>
    errorIf (!config.tabs && !(minIndent ≤ width.toNat && width.toNat ≤ maxIndent))
      (place.flawAtKey (.indentWidth width) "indent")

end Place

namespace Plan

/-- Every rule that the plan breaks, in the order of its declarations. -/
def errors (plan : Plan) (source : Source) : List PlanError :=
  let place : Place := { source }
  place.checkIndent plan.document
    ++ plan.globals.flatMap (fun g => (place.nameError? g.name "global").toList)
    ++ plan.functions.flatMap (fun f =>
      (place.nameError? f.name "function").toList ++ (place.push f.name).checkFunction false f)
    ++ place.checkClasses [] plan.classes

/-- Accepts a plan that breaks no rule and otherwise reports the first. -/
def validate (plan : Plan) (source : Source) : Except PlanError Unit :=
  match plan.errors source with
  | [] => .ok ()
  | e :: _ => .error e

end Plan

end PlanScribe
