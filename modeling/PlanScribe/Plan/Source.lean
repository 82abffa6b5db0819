import PlanScribe.Text.Blank
import PlanScribe.Text.Search

/-!
# Plan sources

Places in the text of a plan, as spans of bytes. A name is looked for in quotation marks, first as
the value of a `name` entry in one of the four common spellings; a key is looked for in front of the
sign that separates it from its value.
-/
namespace PlanScribe

/-- The text of a plan and the name of the file it came from. -/
structure Source where
  text : String
  filename : String

/-- A range of bytes. -/
structure Span where
  offset : Nat
  length : Nat
deriving DecidableEq, Repr

/-- A text in quotation marks. -/
def quoted (text : String) : List Char := '"' :: (text.toList ++ ['"'])

namespace Source

/-- What may stand before the quoted name of an item, the preferred spelling first. -/
def nameEntries : List String := ["name = ", "name=", "\"name\": ", "\"name\":"]

/-- Where a pattern that ends with the quoted name is found, the span of the name itself. -/
def spanIn (name : String) (before : String) (text : List Char) : Option Span :=
  (Text.first? (before.toList ++ quoted name) text).map fun found =>
    ⟨found.offset + Text.byteLength before.toList + 1, Text.byteLength name.toList⟩

/-- The span of a quoted name. -/
def nameSpan? (source : Source) (name : String) : Option Span :=
  if name = "" then none
  else (nameEntries ++ [""]).findSome? fun before => spanIn name before source.text.toList

/-- Only spaces and tabs stand before the place on its line. -/
def startsLine (found : Text.Occurrence) : Bool :=
  match found.before.dropWhile fun c => c == ' ' || c == '\t' with
  | [] => true
  | c :: _ => c == '\n'

/-- The sign follows the place, with nothing but white space between. -/
def followedBy (sign : Char) (found : Text.Occurrence) : Bool :=
  (Text.dropBlank found.after).head? == some sign

/-- The span of a key: bare at the start of a line and followed by an equals sign, or else quoted
and followed by a colon. -/
def keySpan? (source : Source) (key : String) : Option Span :=
  let text := source.text.toList
  let length := Text.byteLength key.toList
  let bare := (Text.occurrences key.toList text).find? fun found =>
    startsLine found && followedBy '=' found
  match bare with
  | some found => some ⟨found.offset, length⟩
  | none =>
    ((Text.occurrences (quoted key) text).find? (followedBy ':')).map fun found =>
      ⟨found.offset + 1, length⟩

/-- The number of bytes of the first `count` lines, line feeds included. -/
def bytesOfLines : Nat → List Char → Nat
  | 0, _ => 0
  | _ + 1, [] => 0
  | count + 1, c :: rest =>
    c.utf8Size + (if c = '\n' then bytesOfLines count rest else bytesOfLines (count + 1) rest)

/-- The byte offset of a line and column, both counted from one; a line number of zero stands for no
position, and so does a position after the end of the text. The offset is a machine word, and a sum
that does not fit into one wraps around before it is compared with the end. -/
def offsetOf? (text : List Char) (line column : Nat) : Option Nat :=
  if line = 0 then none
  else
    let offset := UInt64.ofNat (bytesOfLines (line - 1) text + (column - 1))
    if offset.toNat ≤ Text.byteLength text then some offset.toNat else none

end Source

end PlanScribe
