import PlanScribe.Build.Block

/-!
# Classes under construction

A class collects fields, statements of its constructor and methods, and is rendered only at the end,
so a field may be declared after a method. The constructor takes the receiver and all fields and
assigns the fields in the order of their declaration.
-/
namespace PlanScribe

/-- A class of which the members are still being collected. -/
structure ClassBuild where
  name : String
  doc : String
  depth : Nat
  indent : Indent
  fields : List Slot := []
  setup : Buffer := {}
  methods : List Buffer := []
deriving DecidableEq, Repr

/-- What declares the members of a class. -/
abbrev ClassBody := ClassBuild → Run ClassBuild

namespace ClassBuild

def fieldNames (cls : ClassBuild) : List String := cls.fields.map Slot.name

/-- Declares a field. Its name must be new, and must not be that of the receiver. -/
def addField (cls : ClassBuild) (field : Slot) : Run ClassBuild :=
  if field.name == receiverName || cls.fieldNames.contains field.name then
    .fail cls (.duplicateField cls.name field.name)
  else .done { cls with fields := cls.fields ++ [field] }

/-- Declares the fields in order, up to the first that cannot be declared. -/
def addFields (cls : ClassBuild) : List Slot → Run ClassBuild
  | [] => .done cls
  | field :: rest => (cls.addField field).andThen (·.addFields rest)

/-- The receiver, then the fields in the order of their declaration. -/
def memberSlots (cls : ClassBuild) : List Slot := .receiver :: cls.fields

/-- Adds a method; the receiver becomes its first parameter. -/
def addMethod (cls : ClassBuild) (f : Function) (body : BlockBody) : Run ClassBuild :=
  (f.withReceiver.render (cls.depth + 1) cls.indent body).commit cls fun text =>
    { cls with methods := cls.methods ++ [text] }

/-- Adds statements that the constructor runs after it has assigned the fields. -/
def addSetup (cls : ClassBuild) (body : BlockBody) : Run ClassBuild :=
  (body (Scope.atDepth (cls.depth + 2) cls.indent)).attempt.commit cls fun block =>
    { cls with setup := cls.setup ++ block.buffer }

def constructor (cls : ClassBuild) : Function :=
  { name := "__init__", parameters := cls.memberSlots }

/-- The statement that stores a constructor argument in its field. -/
def storeField (field : Slot) : String :=
  receiverName ++ "." ++ field.name ++ " = " ++ field.name

def renderConstructor (cls : ClassBuild) : Attempt Buffer :=
  cls.constructor.render (cls.depth + 1) cls.indent fun block =>
    .done ((block.writeAll (cls.fields.map storeField)).append cls.setup)

/-- The text of a class from that of its constructor. -/
def assemble (cls : ClassBuild) (constructor : Buffer) : Buffer :=
  let outer := (Scope.atDepth cls.depth cls.indent).write s!"class {cls.name}:"
  let opened := (outer.child.writeDoc cls.doc).append constructor
  let body := cls.methods.foldl (fun scope text => scope.writeBlank.append text) opened
  (outer.splice body).buffer

/-- The whole class: its head, documentation, constructor and methods. -/
def render (cls : ClassBuild) : Attempt Buffer :=
  cls.renderConstructor.finish cls.assemble [.logged .renderedClass]

end ClassBuild

end PlanScribe
