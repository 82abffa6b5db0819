import PlanScribe.Build.Run

/-!
# Compound statements

A compound statement is a header line and a suite one level deeper. The suite is written into a
child scope and joins its parent only if all of it succeeded; a suite to which nothing was written
is `pass`.
-/
namespace PlanScribe

/-- What writes a block: it is given the scope of the block and leaves it filled. -/
abbrev BlockBody := Scope → Run Scope

/-- The head of a loop. -/
inductive Loop
  | whileTrue (condition : String)
  | range (counter : String) (start stop : Int64)
  | enumerate (index item iterable : String)
deriving DecidableEq, Repr

namespace Loop

/-- The header line of the loop. -/
def header : Loop → String
  | whileTrue condition => s!"while {condition}:"
  | range counter start stop =>
    let first := start.toInt
    let last := stop.toInt
    s!"for {counter} in range({first}, {last}):"
  | enumerate index item iterable => s!"for {index}, {item} in enumerate({iterable}):"

end Loop

def ifHeader (condition : String) : String := s!"if {condition}:"

def elifHeader (condition : String) : String := s!"elif {condition}:"

def elseHeader : String := "else:"

/-- An assignment to a slot. -/
def assignment (target : Slot) (expression : String) : String :=
  target.asTarget ++ " = " ++ expression

/-- A text between triple quotes. -/
def docstring (doc : String) : String := "\"\"\"" ++ doc ++ "\"\"\""

namespace Scope

/-- The scope as a suite: `pass` stands for nothing at all. -/
def orPass (scope : Scope) : Scope := if scope.isEmpty then scope.write "pass" else scope

/-- Writes a header and, after it, what was written into the scope of its suite. -/
def enclose (scope : Scope) (header : String) (suite : Scope) : Scope :=
  (scope.write header).splice suite.orPass

/-- Writes a compound statement; a suite that fails leaves the scope as it was. -/
def nest (scope : Scope) (header : String) (body : BlockBody) : Run Scope :=
  (body scope.child).attempt.commit scope (scope.enclose header)

/-- Writes the documentation string, unless the documentation is empty. -/
def writeDoc (scope : Scope) (doc : String) : Scope :=
  if doc = "" then scope else scope.write (docstring doc)

end Scope

/-- Writes the definition of a function. The parameters must have names of their own; the body
stands between the documentation string and the return statement. -/
def Function.render (f : Function) (depth : Nat) (indent : Indent) (body : BlockBody) :
    Attempt Buffer :=
  match f.repeatedParameter? with
  | some name => { result := .error (.duplicateParameter f.name name) }
  | none =>
    let outer := Scope.atDepth depth indent
    let block := outer.child.writeDoc (f.doc.getD "")
    (body block).attempt.finish
      (fun inner => ((outer.write f.signature).splice (inner.write f.returnStatement)).buffer)
      [.logged .renderedFunction]

end PlanScribe
