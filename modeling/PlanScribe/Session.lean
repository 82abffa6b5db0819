import PlanScribe.Plan.Lower

/-!
# Sessions

The calls that are made on a document during its life, as data. A session is a document with a
history: calls are answered as long as the document lives, and one ending puts an end to it.
-/
namespace PlanScribe

/-- A call on a living document. -/
inductive Call
  | importModule (moduleName : String)
  | importFrom (moduleName : String) (symbols : List String)
  | expression (text : String)
  | global (target : Slot) (expression : String)
  | addFunction (function : Function) (body : List BlockStep)
  | addClass (name doc : String) (body : List ClassStep)
  | apply (plan : Plan)
  | render
  | close

/-- What a call answers. -/
inductive Reply
  | done
  | text (text : String)
  | closed (result : WriteResult)
deriving DecidableEq, Repr

namespace Document

/-- The answer of a call that only changes the document. -/
def answer (run : Run Document) : Response Reply :=
  { document := run.state, notes := run.notes
    result := match run.error with
      | none => .ok .done
      | some e => .error e }

/-- Makes one call. -/
def call (doc : Document) : Call → Response Reply
  | .importModule moduleName => answer (doc.importModule moduleName)
  | .importFrom moduleName symbols => answer (doc.importFrom moduleName symbols)
  | .expression text => answer (doc.addExpression text)
  | .global target expression => answer (doc.addGlobal target expression)
  | .addFunction function body => answer (doc.addFunction function (runBlock body))
  | .addClass name classDoc body => answer (doc.addClass name classDoc (runClass body))
  | .apply plan => answer (plan.apply doc)
  | .render =>
    let rendering := doc.render
    { document := doc, result := rendering.result.map .text, notes := rendering.notes }
  | .close =>
    let closing := doc.close
    { document := closing.document, result := closing.result.map .closed, notes := closing.notes }

end Document

/-- A document, which may have come to its end. -/
structure Session where
  document : Document
  ended : Bool := false

/-- What an ending answers: for a document that is closed, whether it had a sink. -/
abbrev Parting := Option Bool

namespace Session

/-- Makes a call; a document that has ended answers none. -/
def call (session : Session) (c : Call) : Session × Option (Response Reply) :=
  if session.ended then (session, none)
  else
    let response := session.document.call c
    ({ session with document := response.document }, some response)

/-- Ends the document. -/
def finish (doc : Document) : Document.Ending → Response Parting
  | .intoSink =>
    let response := doc.intoSink
    { response with result := response.result.map some }
  | .discard =>
    let response := doc.discard
    { response with result := response.result.map fun _ => none }
  | .drop panicking =>
    let response := doc.drop panicking
    { response with result := response.result.map fun _ => none }

/-- Ends the session; a document that has ended cannot be ended again. -/
def conclude (session : Session) (ending : Document.Ending) : Session × Option (Response Parting) :=
  if session.ended then (session, none)
  else
    let response := finish session.document ending
    ({ document := response.document, ended := true }, some response)

/-- The events logged while a document that is still alive goes out of use at the end. -/
def close (session : Session) : Session × List Note :=
  if session.ended then (session, [])
  else
    let response := session.document.drop false
    ({ document := response.document, ended := true }, response.notes)

end Session

end PlanScribe
