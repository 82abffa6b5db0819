import PlanScribe.Name
import PlanScribe.Plan.Source

/-!
# Diagnostics of a plan

What can be wrong with a plan, with the wording, the diagnostic code, the advice and the labelled
place for each.
-/
namespace PlanScribe

/-- A rule that a well-formed plan breaks. -/
inductive Flaw
  | indentWidth (width : UInt8)
  | receiverParameter (path : String)
  | repeatedParameter (name path : String)
  | repeatedClass (name : String)
  | receiverField (path : String)
  | repeatedField (name path : String)
  | stated (message : String)
deriving DecidableEq, Repr

/-- The narrowest and the widest indentation that a plan may ask for. -/
def minIndent : Nat := 1

def maxIndent : Nat := 8

def Flaw.message : Flaw → String
  | indentWidth width =>
    let n := width.toNat
    s!"indent width {n} is outside {minIndent}..={maxIndent}"
  | receiverParameter path => s!"parameter 'self' in '{path}' clashes with the receiver"
  | repeatedParameter name path => s!"parameter '{name}' appears more than once in '{path}'"
  | repeatedClass name => s!"class '{name}' is defined more than once"
  | receiverField path => s!"field 'self' in '{path}' clashes with the receiver"
  | repeatedField name path => s!"field '{name}' is declared more than once in '{path}'"
  | stated message => message

/-- Why a plan was refused. -/
inductive PlanError
  | unreadable (path : String)
  | malformedToml (filename : String)
  | malformedJson (filename : String) (span : Option Span)
  | flawed (filename : String) (span : Option Span) (flaw : Flaw)
  | reservedName (filename : String) (span : Option Span) (name context : String)
  | invalidName (filename : String) (span : Option Span) (name context : String)
      (fault : NameFault)
deriving DecidableEq, Repr

/-- A remark on a range of the source. -/
structure Label where
  text : String
  span : Span
deriving DecidableEq, Repr

namespace PlanError

def message : PlanError → String
  | unreadable path => s!"failed to read '{path}'"
  | malformedToml _ => "failed to parse plan"
  | malformedJson .. => "failed to parse JSON plan"
  | flawed _ _ flaw => flaw.message
  | reservedName _ _ name _ => s!"'{name}' is a Python reserved keyword"
  | invalidName _ _ name context _ => s!"invalid {context} name '{name}'"

/-- The diagnostic code. -/
def code? : PlanError → Option String
  | malformedToml _ => some "pygen::parse_error"
  | malformedJson .. => some "pygen::json_error"
  | flawed .. => some "pygen::validation_error"
  | unreadable _ | reservedName .. | invalidName .. => none

/-- Advice on what to do about the error. -/
def help? : PlanError → Option String
  | unreadable _ => some "pass the path of an existing .toml or .json plan"
  | reservedName _ _ name _ =>
    some s!"rename '{name}' to something else, e.g. '{name}_'"
  | invalidName _ _ _ _ fault =>
    some (fault.reason ++ ". Use only letters, numbers, and underscores, starting with a letter "
      ++ "or underscore.")
  | malformedToml _ | malformedJson .. | flawed .. => none

/-- The file that the error is about, if it could be read. -/
def filename? : PlanError → Option String
  | unreadable _ => none
  | malformedToml filename | malformedJson filename _ | flawed filename _ _
  | reservedName filename _ _ _ | invalidName filename _ _ _ _ => some filename

/-- What is said about the place of the error. -/
def labelText : PlanError → String
  | unreadable _ => ""
  | malformedToml _ | malformedJson .. => "parse error here"
  | flawed _ _ flaw => flaw.message
  | reservedName .. => "reserved keyword used here"
  | invalidName .. => "invalid identifier"

def span? : PlanError → Option Span
  | unreadable _ | malformedToml _ => none
  | malformedJson _ span | flawed _ span _ | reservedName _ span _ _
  | invalidName _ span _ _ _ => span

/-- The labels to show in the source: one if the place of the error is known. -/
def labels (e : PlanError) : List Label :=
  (e.span?.map fun span => ⟨e.labelText, span⟩).toList

/-- A syntax error at a line and column of a source. -/
def malformedJsonAt (source : Source) (line column : Nat) : PlanError :=
  .malformedJson source.filename
    ((Source.offsetOf? source.text.toList line column).map fun offset => ⟨offset, 1⟩)

end PlanError

end PlanScribe
