/-!
# Data trees

The values that plan files are made of. Numbers that are not written as integers, dates and times
keep only their text: no plan has a use for them. The entries of a table stand in the order of the
file, and a repeated key is kept for the reader of the tree to refuse.
-/
namespace PlanScribe

inductive Tree
  | null
  | boolean (value : Bool)
  | integer (value : Int)
  | decimal (text : String)
  | moment (text : String)
  | text (value : String)
  | array (items : List Tree)
  | table (entries : List (String × Tree))

/-- What remains to be read, after something was read from its front. -/
abbrev Reading (α : Type) := Option (α × List Char)

namespace Reading

/-- Transforms what was read. -/
def map {α β : Type} (f : α → β) (reading : Reading α) : Reading β :=
  Option.map (fun (value, rest) => (f value, rest)) reading

/-- Goes on with what was read and the text that remains. -/
def andThen {α β : Type} (reading : Reading α) (next : α → List Char → Reading β) : Reading β :=
  Option.bind reading fun (value, rest) => next value rest

end Reading

/-- The value of a hexadecimal digit. -/
def hexDigit? (c : Char) : Option Nat :=
  if '0' ≤ c && c ≤ '9' then some (c.toNat - '0'.toNat)
  else if 'a' ≤ c && c ≤ 'f' then some (c.toNat - 'a'.toNat + 10)
  else if 'A' ≤ c && c ≤ 'F' then some (c.toNat - 'A'.toNat + 10)
  else none

/-- The number that hexadecimal digits stand for. -/
def hexValue? (digits : List Char) : Option Nat :=
  digits.foldl (fun value c => do return 16 * (← value) + (← hexDigit? c)) (some 0)

/-- The number that digits of a base stand for, each digit below the base. -/
def digitsValue (base : Nat) (digits : List Char) : Nat :=
  digits.foldl (fun value c => base * value + (hexDigit? c).getD 0) 0

end PlanScribe
