import PlanScribe.Plan.Basic
import PlanScribe.Document.Delivery

/-!
# Lowering

A plan is lowered into a document call by call: the header lines, the globals, the classes and the
functions, each kind in the order of declaration. Writing a body cannot fail; declaring fields and
parameters can.
-/
namespace PlanScribe

mutual

/-- Writes a statement into a block. -/
def Statement.emit : Statement → Scope → Scope
  | .line text, scope => scope.write text
  | .assign target value, scope => scope.write (assignment target.slot value)
  | .loop head body, scope => scope.enclose head.header (emitBody body scope.child)
  | .cond condition body branches otherwise, scope =>
    emitOtherwise otherwise
      (emitBranches branches (scope.enclose (ifHeader condition) (emitBody body scope.child)))
termination_by structural statement => statement

/-- Writes the statements of a body in order. -/
def emitBody : List Statement → Scope → Scope
  | [], scope => scope
  | statement :: rest, scope => emitBody rest (statement.emit scope)
termination_by structural body => body

def emitBranches : List Branch → Scope → Scope
  | [], scope => scope
  | ⟨condition, body⟩ :: rest, scope =>
    emitBranches rest (scope.enclose (elifHeader condition) (emitBody body scope.child))
termination_by structural branches => branches

def emitOtherwise : Option (List Statement) → Scope → Scope
  | none, scope => scope
  | some body, scope => scope.enclose elseHeader (emitBody body scope.child)
termination_by structural body => body

end

/-- A body as what writes a block. -/
def bodyOf (body : List Statement) : BlockBody := fun scope => .done (emitBody body scope)

/-- The signature of a described function. -/
def FunctionDef.declaration (f : FunctionDef) : Function :=
  { name := f.name, parameters := f.params.map ValueDef.slot,
    returns := f.returns.map ValueDef.slot, doc := f.doc }

namespace ClassDef

def addMethods (cls : ClassBuild) : List FunctionDef → Run ClassBuild
  | [] => .done cls
  | f :: rest => (cls.addMethod f.declaration (bodyOf f.body)).andThen (addMethods · rest)

/-- Declares the members of a class: fields, constructor statements, methods. -/
def lower (c : ClassDef) : ClassBody := fun cls =>
  ((cls.addFields (c.fields.map ValueDef.slot)).andThen fun cls =>
    if c.init.isEmpty then .done cls else cls.addSetup (bodyOf c.init)).andThen fun cls =>
    addMethods cls c.methods

end ClassDef

namespace DocumentConfig

def options (config : DocumentConfig) : DocumentOptions :=
  { indent := if config.tabs then .tab else (config.indent.map Indent.spaces).getD .standard
    header := config.header }

def rules (config : DocumentConfig) : FileRules :=
  { overwrite := config.overwrite, header := config.header }

end DocumentConfig

namespace Document

/-- Makes one call for each item in turn, up to the first that fails. -/
def each {α : Type} (call : Document → α → Run Document) (items : List α) (doc : Document) :
    Run Document :=
  match items with
  | [] => .done doc
  | item :: rest => (call doc item).andThen (each call rest)

end Document

namespace Plan

/-- Adds everything that the plan describes to a document. -/
def apply (plan : Plan) (doc : Document) : Run Document :=
  ((((((Document.each Document.importModule plan.imports doc).andThen
    (Document.each (fun doc i => doc.importFrom i.moduleName i.symbols) plan.fromImports)).andThen
    (Document.each Document.addExpression plan.expressions)).andThen
    (Document.each (fun doc g => doc.addGlobal (.named g.name g.annotation) g.value)
      plan.globals)).andThen
    (Document.each (fun doc c => doc.addClass c.name c.doc c.lower) plan.classes)).andThen
    (Document.each (fun doc f => doc.addFunction f.declaration (bodyOf f.body))
      plan.functions)).thenNote (.logged .appliedPlan)

/-- The output file that the plan describes. -/
def render (plan : Plan) : Except BuildError String :=
  let applied := plan.apply (Document.create plan.document.options (some {}))
  match applied.error with
  | some e => .error e
  | none => applied.state.render.result

/-- Renders the plan and writes it to a file, which is left alone if the plan cannot be rendered. -/
def writeTo (plan : Plan) (tree : FileTree) (path : Path) (rules : FileRules) :
    FileTree × Except BuildError WriteResult :=
  match plan.render with
  | .error e => (tree, .error e)
  | .ok text =>
    match tree.writeDestination path rules.overwrite (encodeText text) with
    | (left, none) => (left, .error (.unopened path))
    | (left, some result) => (left, .ok result)

end Plan

end PlanScribe
