import PlanScribe.Text.Search

/-!
# Templates

In a template an opening brace directly followed by a closing one is a hole, and a doubled brace
stands for the brace itself; a brace anywhere else is malformed. The holes are filled from left to
right, and there must be as many of them as there are arguments.
-/
namespace PlanScribe.Template

/-- What is wrong with a brace. -/
inductive BraceFault
  | unclosed
  | unsupported
  | unmatched
deriving DecidableEq, Repr

def BraceFault.reason : BraceFault → String
  | unclosed => "unclosed '\x7b'"
  | unsupported => "unsupported placeholder"
  | unmatched => "unmatched '\x7d'"

/-- Why a template cannot be filled: the first bad brace, by its byte position, or the two counts
that differ. -/
inductive Error
  | malformed (position : Nat) (fault : BraceFault)
  | arity (placeholders arguments : Nat)
deriving DecidableEq, Repr

/-- A part of a template: a character of the result, or a hole. -/
inductive Piece
  | literal (c : Char)
  | hole
deriving DecidableEq, Repr

/-- Reads a template whose first character stands at the byte `position`. -/
def piecesAt (position : Nat) : List Char → Except Error (List Piece)
  | [] => .ok []
  | '{' :: '{' :: rest => (piecesAt (position + 2) rest).map (.literal '{' :: ·)
  | '{' :: '}' :: rest => (piecesAt (position + 2) rest).map (.hole :: ·)
  | '{' :: _ :: _ => .error (.malformed position .unsupported)
  | ['{'] => .error (.malformed position .unclosed)
  | '}' :: '}' :: rest => (piecesAt (position + 2) rest).map (.literal '}' :: ·)
  | '}' :: _ => .error (.malformed position .unmatched)
  | c :: rest => (piecesAt (position + c.utf8Size) rest).map (.literal c :: ·)

def pieces (template : String) : Except Error (List Piece) := piecesAt 0 template.toList

def holes (parts : List Piece) : Nat := parts.count .hole

/-- Puts the arguments into the holes; a hole without an argument is left out. -/
def fill : List Piece → List String → List Char
  | [], _ => []
  | .literal c :: parts, arguments => c :: fill parts arguments
  | .hole :: parts, argument :: arguments => argument.toList ++ fill parts arguments
  | .hole :: parts, [] => fill parts []

end PlanScribe.Template

namespace PlanScribe

/-- The template with its holes filled by the arguments, in order. -/
def interpolate (template : String) (arguments : List String) : Except Template.Error String :=
  match Template.pieces template with
  | .error e => .error e
  | .ok parts =>
    if Template.holes parts = arguments.length then
      .ok (String.ofList (Template.fill parts arguments))
    else .error (.arity (Template.holes parts) arguments.length)

end PlanScribe
