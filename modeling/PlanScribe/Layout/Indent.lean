/-!
# Indentation units

What one nesting level adds in front of a line.
-/
namespace PlanScribe

/-- The indentation of one nesting level. -/
inductive Indent
  | spaces (width : UInt8)
  | tab
deriving DecidableEq, Repr

namespace Indent

/-- Four spaces. -/
def standard : Indent := .spaces 4

instance : Inhabited Indent := ⟨standard⟩

/-- The number of spaces that are written for a width: a width outside 1 to 8 counts as 4. -/
def effectiveWidth (width : UInt8) : Nat :=
  if 1 ≤ width.toNat && width.toNat ≤ 8 then width.toNat else 4

/-- The text of one nesting level. -/
def unit : Indent → String
  | spaces width => String.ofList (List.replicate (effectiveWidth width) ' ')
  | tab => "\t"

/-- The text in front of a line at the given depth. -/
def margin (indent : Indent) (depth : Nat) : String :=
  String.join (List.replicate depth indent.unit)

@[simp] theorem margin_zero (indent : Indent) : indent.margin 0 = "" := rfl

end Indent

end PlanScribe
