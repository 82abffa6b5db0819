import PlanScribe.Layout.Scope

/-!
# Stacks of open scopes

A scope that is written step by step keeps its unfinished children on a stack: each step acts on the
innermost scope, which is at last spliced into the one below it or dropped.
-/
namespace PlanScribe

/-- The innermost open scope and the scopes around it, inner ones first. -/
structure ScopeStack where
  top : Scope
  outer : List Scope := []

/-- One step on the innermost scope. -/
inductive ScopeStep
  | write (text : String)
  | writeFilled (template : String) (arguments : List String)
  | blank
  | append (buffer : Buffer)
  | child
  | splice
  | drop

/-- Why a step did nothing. -/
inductive ScopeStepError
  | template (template : String) (error : Template.Error)
  | noChild

namespace ScopeStack

def openCount (stack : ScopeStack) : Nat := stack.outer.length + 1

/-- The outermost scope. -/
def root (stack : ScopeStack) : Scope := stack.outer.getLastD stack.top

/-- Takes one step. The outermost scope is neither spliced nor dropped. -/
def step (stack : ScopeStack) : ScopeStep → Except ScopeStepError ScopeStack
  | .write text => .ok { stack with top := stack.top.write text }
  | .writeFilled template arguments =>
    match stack.top.writeFilled template arguments with
    | .ok top => .ok { stack with top }
    | .error e => .error (.template template e)
  | .blank => .ok { stack with top := stack.top.writeBlank }
  | .append buffer => .ok { stack with top := stack.top.append buffer }
  | .child => .ok { top := stack.top.child, outer := stack.top :: stack.outer }
  | .splice =>
    match stack.outer with
    | [] => .error .noChild
    | parent :: rest => .ok { top := parent.splice stack.top, outer := rest }
  | .drop =>
    match stack.outer with
    | [] => .error .noChild
    | parent :: rest => .ok { top := parent, outer := rest }

/-- Takes the steps one after the other; a step that fails changes nothing. -/
def run (stack : ScopeStack) (steps : List ScopeStep) : ScopeStack :=
  steps.foldl (fun s step => (s.step step).toOption.getD s) stack

end ScopeStack

end PlanScribe
