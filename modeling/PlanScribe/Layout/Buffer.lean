/-!
# Text buffers

Rendered text as the list of the entries that were appended. Each entry is followed by one line feed
in the text. An entry may hold line feeds of its own, so the number of entries is the number of
lines appended and not always the number of line feeds.
-/
namespace PlanScribe

/-- Text that only grows, as the entries appended so far. -/
structure Buffer where
  entries : List String := []
deriving DecidableEq, Repr

namespace Buffer

def empty : Buffer := ⟨[]⟩

def ofEntries (entries : List String) : Buffer := ⟨entries⟩

/-- Adds an entry at the end. -/
def push (buffer : Buffer) (entry : String) : Buffer := ⟨buffer.entries ++ [entry]⟩

/-- Adds an empty line at the end. -/
def pushBlank (buffer : Buffer) : Buffer := buffer.push ""

instance : Append Buffer := ⟨fun a b => ⟨a.entries ++ b.entries⟩⟩

/-- The number of lines appended. -/
def lineCount (buffer : Buffer) : Nat := buffer.entries.length

def isEmpty (buffer : Buffer) : Bool := buffer.entries.isEmpty

/-- Every entry followed by a line feed. -/
def text (buffer : Buffer) : String :=
  String.join (buffer.entries.map fun entry => entry ++ "\n")

@[simp] theorem entries_append (a b : Buffer) : (a ++ b).entries = a.entries ++ b.entries := rfl

@[simp] theorem entries_push (a : Buffer) (entry : String) :
    (a.push entry).entries = a.entries ++ [entry] := rfl

@[simp] theorem lineCount_append (a b : Buffer) :
    (a ++ b).lineCount = a.lineCount + b.lineCount := by
  simp [lineCount]

@[simp] theorem text_append (a b : Buffer) : (a ++ b).text = a.text ++ b.text := by
  simp [text]

@[simp] theorem text_push (a : Buffer) (entry : String) :
    (a.push entry).text = a.text ++ (entry ++ "\n") := by
  simp [text]

end Buffer

end PlanScribe
