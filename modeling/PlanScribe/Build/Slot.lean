/-!
# Slots

A slot is a parameter, a return value, a field or the target of an assignment. The receiver is a
slot of its own kind, so an ordinary slot that is called `self` is still told apart from it.
-/
namespace PlanScribe

/-- The name under which the receiver is written. -/
def receiverName : String := "self"

/-- A named place; the annotation of an ordinary slot may be empty. -/
inductive Slot
  | receiver
  | named (name annotation : String)
deriving DecidableEq, Repr

namespace Slot

def name : Slot → String
  | receiver => receiverName
  | named name _ => name

def annotation : Slot → String
  | receiver => ""
  | named _ annotation => annotation

def isReceiver : Slot → Bool
  | receiver => true
  | named .. => false

/-- The name, followed by the separator and the annotation if there is one. -/
def annotated (separator : String) (slot : Slot) : String :=
  if slot.annotation = "" then slot.name else slot.name ++ separator ++ slot.annotation

/-- The slot as an entry of a parameter list. -/
def asParameter (slot : Slot) : String := slot.annotated ":"

/-- The slot as the left side of an assignment. -/
def asTarget (slot : Slot) : String := slot.annotated ": "

end Slot

end PlanScribe
