import PlanScribe.Text.Blank

/-!
# Physical lines

A line ends at a line feed. A carriage return directly before that line feed belongs to the line
break; any other carriage return is an ordinary character of its line. A text that ends with a line
break has no further line after it, and the empty text has no line.
-/
namespace PlanScribe.Text

/-- The lines of a text, without their line breaks. -/
def lines : List Char → List (List Char)
  | [] => []
  | '\n' :: rest => [] :: lines rest
  | '\r' :: '\n' :: rest => [] :: lines rest
  | c :: rest =>
    match lines rest with
    | [] => [[c]]
    | line :: more => (c :: line) :: more

/-- The lines of a string, without their line breaks. -/
def physicalLines (text : String) : List String :=
  (lines text.toList).map String.ofList

@[simp] theorem lines_nil : lines [] = [] := rfl

@[simp] theorem lines_lineFeed (rest : List Char) : lines ('\n' :: rest) = [] :: lines rest := by
  rw [lines]

theorem lines_eq_nil_iff (text : List Char) : lines text = [] ↔ text = [] := by
  fun_cases lines text <;> simp_all

example : lines ['a', '\r', '\n', 'b', '\r'] = [['a'], ['b', '\r']] := by decide
example : lines ['\n'] = [[]] := by decide

end PlanScribe.Text
