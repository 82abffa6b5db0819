/-!
# Python names

A usable name is not a reserved word, is not empty, starts with an ASCII letter or an underscore and
goes on with ASCII letters, digits and underscores.
-/
namespace PlanScribe

/-- The reserved words, in the order of the language reference. -/
def keywords : List String :=
  ["False", "None", "True", "and", "as", "assert", "async", "await", "break", "class", "continue",
    "def", "del", "elif", "else", "except", "finally", "for", "from", "global", "if", "import",
    "in", "is", "lambda", "nonlocal", "not", "or", "pass", "raise", "return", "try", "while",
    "with", "yield"]

def isKeyword (name : String) : Bool := keywords.contains name

/-- Why a text is not a usable name. -/
inductive NameFault
  | reserved
  | empty
  | badStart
  | badCharacter
deriving DecidableEq, Repr

namespace NameFault

def reason : NameFault → String
  | reserved => "name is a Python reserved keyword"
  | empty => "name cannot be empty"
  | badStart => "name must start with a letter or underscore"
  | badCharacter => "name must contain only letters, numbers, and underscores"

end NameFault

/-- A character that may start a name: an ASCII letter or an underscore. -/
def startsName (c : Char) : Bool := c.isAlpha || c == '_'

/-- A character that may stand inside a name: an ASCII letter, digit or underscore. -/
def continuesName (c : Char) : Bool := c.isAlphanum || c == '_'

/-- What keeps the text from being a name; a reserved word is reported before its spelling is
looked at. -/
def nameFault? (name : String) : Option NameFault :=
  if isKeyword name then some .reserved
  else match name.toList with
    | [] => some .empty
    | c :: rest =>
      if !startsName c then some .badStart
      else if rest.all continuesName then none
      else some .badCharacter

/-- The text can be used as a name. -/
def isName (name : String) : Bool := (nameFault? name).isNone

end PlanScribe
