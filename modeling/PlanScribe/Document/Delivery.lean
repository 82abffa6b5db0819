import PlanScribe.Document.Basic

/-!
# Delivery

The rendered document goes to its sink at most once. Closing delivers it on the first try only,
whether the sink takes it or not; dropping an open document delivers it unless a call on it failed
or a panic is under way; discarding delivers nothing.
-/
namespace PlanScribe

/-- The answer of a call on a document, with what became of the document. -/
structure Response (α : Type) where
  document : Document
  result : Except BuildError α
  notes : List Note := []

namespace Document

/-- Delivers a rendered text to the sink. -/
def deliver (doc : Document) (sink : Sink) (text : String) : Response WriteResult :=
  match sink.deliver (encodeText text) with
  | (used, true) =>
    { document := { doc with sink := some used }, result := .ok .written,
      notes := [.logged .wroteDocument] }
  | (used, false) =>
    { document := { doc with sink := some used }, result := .error .unwritten }

/-- Closes the document and, the first time, delivers it. -/
def close (doc : Document) : Response WriteResult :=
  if doc.closed then { document := doc, result := .ok .skipped }
  else
    let done := { doc with closed := true }
    match done.sink with
    | none => { document := done, result := .ok .skipped }
    | some sink =>
      let rendering := done.render
      match rendering.result with
      | .error e => { document := done, result := .error e, notes := rendering.notes }
      | .ok text =>
        let delivery := done.deliver sink text
        { delivery with notes := rendering.notes ++ delivery.notes }

/-- How the life of a document ends. -/
inductive Ending
  /-- Closes the document and hands back its sink. -/
  | intoSink
  | discard
  /-- The document goes out of use, in the course of a panic or not. -/
  | drop (panicking : Bool)
deriving DecidableEq, Repr

/-- Lets the document go out of use. -/
def drop (doc : Document) (panicking : Bool) : Response Unit :=
  if doc.closed then { document := doc, result := .ok () }
  else if doc.poisoned || panicking then
    { document := { doc with closed := true }, result := .ok (),
      notes := [.logged .discardedUnfinished] }
  else
    let closing := doc.close
    match closing.result with
    | .ok _ => { document := closing.document, result := .ok (), notes := closing.notes }
    | .error _ =>
      { document := closing.document, result := .ok (),
        notes := closing.notes ++ [.logged .lostOnDrop] }

/-- Gives the document up without delivering it. -/
def discard (doc : Document) : Response Unit :=
  { document := { doc with closed := true }, result := .ok (),
    notes := [.logged .discardedDocument] }

/-- Closes the document; tells whether it had a sink to hand back. -/
def intoSink (doc : Document) : Response Bool :=
  let closing := doc.close
  match closing.result with
  | .error e => { document := closing.document, result := .error e, notes := closing.notes }
  | .ok _ =>
    { document := closing.document, result := .ok closing.document.sink.isSome,
      notes := closing.notes }

end Document

end PlanScribe
