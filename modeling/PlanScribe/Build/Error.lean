import PlanScribe.Layout.Template

/-!
# Errors of a build

What can stop the building, the rendering or the delivery of a document, with the wording, the
diagnostic code and the advice for each.
-/
namespace PlanScribe

/-- Why a build call failed. -/
inductive BuildError
  | unopened (path : String)
  | unwritten
  | template (template : String) (error : Template.Error)
  | duplicateField (className field : String)
  | duplicateParameter (function name : String)
  | documentClosed
  | callback (message : String)
deriving DecidableEq, Repr

namespace BuildError

def message : BuildError → String
  | unopened path => s!"failed to open '{path}' for writing"
  | unwritten => "failed to write generated output"
  | template text (.arity placeholders arguments) =>
    s!"format string '{text}' has {placeholders} placeholder(s) but {arguments} argument(s)"
  | template text (.malformed position fault) =>
    let reason := fault.reason
    s!"malformed format string '{text}': {reason} at byte {position}"
  | duplicateField className field => s!"duplicate field '{field}' in class '{className}'"
  | duplicateParameter function name => s!"duplicate parameter '{name}' in function '{function}'"
  | documentClosed => "document output has already been written"
  | callback message => message

/-- The diagnostic code. -/
def code : BuildError → String
  | unopened _ => "pygen::io"
  | unwritten => "pygen::write"
  | template _ (.arity ..) => "pygen::format_arity"
  | template _ (.malformed ..) => "pygen::format_syntax"
  | duplicateField .. => "pygen::duplicate_field"
  | duplicateParameter .. => "pygen::duplicate_parameter"
  | documentClosed => "pygen::document_closed"
  | callback _ => "pygen::callback"

/-- Advice on what to do about the error. -/
def help? : BuildError → Option String
  | unopened _ => some "check that the directory is writable"
  | template _ (.arity ..) => some "pass exactly one argument per placeholder"
  | template _ (.malformed ..) => some "literal braces are written doubled"
  | documentClosed =>
    some "add every import, class and function before closing the document"
  | unwritten | duplicateField .. | duplicateParameter .. | callback _ => none

end BuildError

end PlanScribe
