/-!
# Occurrences of one text in another

Positions are counted in bytes of UTF-8. Occurrences are found from left to right and do not
overlap; the empty text occurs before every character and at the end.
-/
namespace PlanScribe.Text

/-- The number of bytes of the UTF-8 encoding. -/
def byteLength (text : List Char) : Nat := text.foldr (fun c total => c.utf8Size + total) 0

/-- One place at which a text was found: what stands before it, last character first, and after. -/
structure Occurrence where
  before : List Char
  after : List Char

namespace Occurrence

/-- The byte position of the first character found. -/
def offset (o : Occurrence) : Nat := byteLength o.before

end Occurrence

/-- The occurrences in `text` once `skip` more characters are passed; `before` holds, last first,
what was passed already. -/
def occurrencesAfter (needle : List Char) : Nat → List Char → List Char → List Occurrence
  | _, before, [] => if needle.isEmpty then [⟨before, []⟩] else []
  | skip + 1, before, c :: rest => occurrencesAfter needle skip (c :: before) rest
  | 0, before, c :: rest =>
    if needle.isPrefixOf (c :: rest) then
      ⟨before, (c :: rest).drop needle.length⟩
        :: occurrencesAfter needle (needle.length - 1) (c :: before) rest
    else occurrencesAfter needle 0 (c :: before) rest

def occurrences (needle text : List Char) : List Occurrence :=
  occurrencesAfter needle 0 [] text

/-- The leftmost occurrence. -/
def first? (needle text : List Char) : Option Occurrence :=
  (occurrences needle text).head?

@[simp] theorem byteLength_nil : byteLength [] = 0 := rfl

@[simp] theorem byteLength_cons (c : Char) (text : List Char) :
    byteLength (c :: text) = c.utf8Size + byteLength text := rfl

@[simp] theorem byteLength_append (a b : List Char) :
    byteLength (a ++ b) = byteLength a + byteLength b := by
  induction a with
  | nil => simp
  | cons c rest ih => rw [List.cons_append, byteLength_cons, byteLength_cons, ih, Nat.add_assoc]

example :
    (occurrences ['a', 'a'] ['a', 'a', 'a', 'b', 'a', 'a']).map Occurrence.offset = [0, 4] := by
  decide

end PlanScribe.Text
