import PlanScribe.Build.ClassBuild

/-!
# Build programs

The calls that fill a block or a class, as data: a program can fail on purpose, can catch the
failure of a part of itself and go on, and can have its own progress recorded.
-/
namespace PlanScribe

/-- A value that is put into a template. -/
inductive Argument
  | text (value : String)
  | flag (value : Bool)
  | number (value : Int)
deriving DecidableEq, Repr

namespace Argument

/-- The value as it is written. -/
def written : Argument → String
  | text value => value
  | flag true => "true"
  | flag false => "false"
  | number value => toString value

end Argument

mutual

/-- One call on a block. -/
inductive BlockStep
  | write (text : String)
  | writeFilled (template : String) (arguments : List Argument)
  | blank
  | append (lines : List String)
  | assign (target : Slot) (expression : String)
  | cond (condition : String) (body : List BlockStep) (branches : List BlockBranch)
      (otherwise : Option (List BlockStep))
  | loop (head : Loop) (body : List BlockStep)
  | peek
  | fail (message : String)
  | attempt (body : List BlockStep)

/-- A further condition of a conditional, with its suite. -/
structure BlockBranch where
  condition : String
  body : List BlockStep

end

mutual

def BlockStep.run : BlockStep → BlockBody
  | .write text, scope => .done (scope.write text)
  | .writeFilled template arguments, scope =>
    match scope.writeFilled template (arguments.map Argument.written) with
    | .ok written => .done written
    | .error e => .fail scope (.template template e)
  | .blank, scope => .done scope.writeBlank
  | .append lines, scope => .done (scope.append (.ofEntries lines))
  | .assign target expression, scope => .done (scope.write (assignment target expression))
  | .cond condition body branches otherwise, scope =>
    ((scope.nest (ifHeader condition) (runBlock body)).andThen (runBranches branches)).andThen
      (runOtherwise otherwise)
  | .loop head body, scope => scope.nest head.header (runBlock body)
  | .peek, scope => .noting scope (.observed (.block scope.buffer scope.depth))
  | .fail message, scope => .fail scope (.callback message)
  | .attempt body, scope => (runBlock body scope).recovered
termination_by structural step => step

/-- Makes the calls in order, up to the first that fails. -/
def runBlock : List BlockStep → BlockBody
  | [], scope => .done scope
  | step :: rest, scope => (step.run scope).andThen (runBlock rest)
termination_by structural steps => steps

/-- Continues a conditional by its further conditions; the depth is noted before each. -/
def runBranches : List BlockBranch → BlockBody
  | [], scope => .done scope
  | ⟨condition, body⟩ :: rest, scope =>
    ((Run.noting scope (.observed (.chainDepth scope.depth))).andThen fun scope =>
      scope.nest (elifHeader condition) (runBlock body)).andThen (runBranches rest)
termination_by structural branches => branches

def runOtherwise : Option (List BlockStep) → BlockBody
  | none, scope => .done scope
  | some body, scope =>
    (Run.noting scope (.observed (.chainDepth scope.depth))).andThen fun scope =>
      scope.nest elseHeader (runBlock body)
termination_by structural body => body

end

/-- One call on a class. -/
inductive ClassStep
  | field (slot : Slot)
  | fields (slots : List Slot)
  | method (function : Function) (body : List BlockStep)
  | setup (body : List BlockStep)
  | peek
  | fail (message : String)
  | attempt (body : List ClassStep)

/-- What can be seen of a class, with the notes of the rendering that it takes. -/
def ClassBuild.observe (cls : ClassBuild) : Run ClassBuild :=
  let rendering := cls.render
  let view : ClassView :=
    { name := cls.name, depth := cls.depth, memberCount := cls.memberSlots.length,
      constructor := cls.constructor, rendered := rendering.result }
  { state := cls, notes := rendering.notes ++ [.observed (.classView view)] }

mutual

def ClassStep.run : ClassStep → ClassBody
  | .field slot, cls => cls.addField slot
  | .fields slots, cls => cls.addFields slots
  | .method function body, cls => cls.addMethod function (runBlock body)
  | .setup body, cls => cls.addSetup (runBlock body)
  | .peek, cls => cls.observe
  | .fail message, cls => .fail cls (.callback message)
  | .attempt body, cls => (runClass body cls).recovered
termination_by structural step => step

/-- Makes the calls in order, up to the first that fails. -/
def runClass : List ClassStep → ClassBody
  | [], cls => .done cls
  | step :: rest, cls => (step.run cls).andThen (runClass rest)
termination_by structural steps => steps

end

end PlanScribe
