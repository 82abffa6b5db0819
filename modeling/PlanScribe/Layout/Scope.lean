import PlanScribe.Text.Lines
import PlanScribe.Layout.Indent
import PlanScribe.Layout.Buffer
import PlanScribe.Layout.Template

/-!
# Scopes

A scope writes lines at one fixed depth. Deeper code is written into a child scope and spliced back.
Every physical line of a written text gets the margin of the depth; a line of white space alone is
written as an empty line.
-/
namespace PlanScribe

/-- A buffer whose lines stand at one nesting depth. -/
structure Scope where
  depth : Nat
  indent : Indent
  buffer : Buffer := {}
deriving DecidableEq, Repr

/-- One physical line at a depth. -/
def indentedLine (indent : Indent) (depth : Nat) (line : String) : String :=
  if Text.allBlank line.toList then "" else indent.margin depth ++ line

/-- The physical lines of a text at a depth; the empty text is one empty line. -/
def indentedLines (indent : Indent) (depth : Nat) (text : String) : List String :=
  if text = "" then [""] else (Text.physicalLines text).map (indentedLine indent depth)

namespace Scope

/-- An empty scope at a depth. -/
def atDepth (depth : Nat) (indent : Indent) : Scope := { depth, indent }

/-- An empty scope one level deeper. -/
def child (scope : Scope) : Scope := atDepth (scope.depth + 1) scope.indent

/-- Writes every physical line of the text. -/
def write (scope : Scope) (text : String) : Scope :=
  { scope with
    buffer := ⟨scope.buffer.entries ++ indentedLines scope.indent scope.depth text⟩ }

/-- Writes each of the texts in turn. -/
def writeAll (scope : Scope) (texts : List String) : Scope := texts.foldl write scope

def writeBlank (scope : Scope) : Scope := { scope with buffer := scope.buffer.pushBlank }

/-- Writes a filled template; a template that cannot be filled writes nothing. -/
def writeFilled (scope : Scope) (template : String) (arguments : List String) :
    Except Template.Error Scope :=
  (interpolate template arguments).map scope.write

/-- Appends rendered text as it is. -/
def append (scope : Scope) (buffer : Buffer) : Scope :=
  { scope with buffer := scope.buffer ++ buffer }

/-- Appends all that was written into another scope. -/
def splice (scope inner : Scope) : Scope := scope.append inner.buffer

def isEmpty (scope : Scope) : Bool := scope.buffer.isEmpty

def text (scope : Scope) : String := scope.buffer.text

@[simp] theorem write_entries (scope : Scope) (text : String) :
    (scope.write text).buffer.entries
      = scope.buffer.entries ++ indentedLines scope.indent scope.depth text := rfl

@[simp] theorem splice_entries (scope inner : Scope) :
    (scope.splice inner).buffer.entries = scope.buffer.entries ++ inner.buffer.entries := rfl

@[simp] theorem depth_write (scope : Scope) (text : String) :
    (scope.write text).depth = scope.depth := rfl

@[simp] theorem depth_splice (scope inner : Scope) : (scope.splice inner).depth = scope.depth := rfl

end Scope

end PlanScribe
