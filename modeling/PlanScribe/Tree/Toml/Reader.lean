import PlanScribe.Tree.Toml.Text
import PlanScribe.Tree.Toml.Scalar
import PlanScribe.Tree.Toml.Draft

/-!
# TOML files

A file is a sequence of lines that open tables and lines that define values. Inline tables may
stretch over several lines and end with a comma. Arrays and inline tables nest at most 80 deep.
-/
namespace PlanScribe.Toml

/-- The number of arrays and inline tables that may stand inside one another. -/
def maxDepth : Nat := 80

/-- A character of a key without quotation marks. -/
def isKeyChar (c : Char) : Bool := c.isAlphanum || c == '_' || c == '-'

/-- One part of a key. -/
def simpleKey (text : List Char) : Reading String :=
  match text.takeWhile isKeyChar with
  | [] => shortString text
  | word => some (String.ofList word, text.dropWhile isKeyChar)

/-- A dotted key of at most `count` parts: the parts before the last, and the last. -/
def dottedKey : (count : Nat) → List Char → Reading (List String × String)
  | 0, _ => none
  | count + 1, text =>
    (simpleKey text).andThen fun first rest =>
      match skipSpace rest with
      | '.' :: more =>
        (dottedKey count (skipSpace more)).map fun (path, last) => (first :: path, last)
      | _ => some (([], first), rest)

/-- A key at the front of the text. -/
def key (text : List Char) : Reading (List String × String) := dottedKey text.length text

/-- The items of an array after its opening bracket, at most `count` of them. -/
def items (value : List Char → Reading Tree) : (count : Nat) → List Char → Reading (List Tree)
  | 0, _ => none
  | count + 1, text =>
    (skipTrivia false text).bind fun text =>
      match text with
      | ']' :: rest => some ([], rest)
      | _ =>
        (value text).andThen fun item rest =>
          (skipTrivia false rest).bind fun rest =>
            match rest with
            | ',' :: rest => (items value count rest).map (item :: ·)
            | ']' :: rest => some ([item], rest)
            | _ => none

/-- An entry of an inline table: a key, an equals sign and a value. -/
def inlineEntry (value : List Char → Reading Tree) (text : List Char) :
    Reading ((List String × String) × Tree) :=
  (key text).andThen fun key rest =>
    (skipTrivia false rest).bind fun rest =>
      match rest with
      | '=' :: rest =>
        (skipTrivia false rest).bind fun rest => (value rest).map (key, ·)
      | _ => none

/-- The entries of an inline table after its opening brace, at most `count` of them, added to the
entries before. -/
def inlineEntries (value : List Char → Reading Tree) :
    (count : Nat) → Entries → List Char → Reading Entries
  | 0, _, _ => none
  | count + 1, entries, text =>
    (skipTrivia false text).bind fun text =>
      match text with
      | '\x7d' :: rest => some (entries, rest)
      | _ =>
        (inlineEntry value text).andThen fun ((path, last), tree) rest =>
          (entries.define path last tree).bind fun entries =>
            (skipTrivia false rest).bind fun rest =>
              match rest with
              | ',' :: rest => inlineEntries value count entries rest
              | '\x7d' :: rest => some (entries, rest)
              | _ => none

/-- A value at the front of the text, with arrays and inline tables at most `depth` deep. -/
def value : (depth : Nat) → List Char → Reading Tree
  | depth, text =>
    match text with
    | '[' :: rest =>
      match depth with
      | 0 => none
      | inner + 1 => (items (value inner) rest.length rest).map .array
    | '\x7b' :: rest =>
      match depth with
      | 0 => none
      | inner + 1 =>
        (inlineEntries (value inner) rest.length [] rest).map fun entries =>
          .table (treesOf entries)
    | '"' :: _ | '\'' :: _ => (string text).map .text
    | _ => unquoted text

/-- One line of a file that is not blank. -/
inductive Line
  | openTable (path : List String) (key : String)
  | addTable (path : List String) (key : String)
  | define (path : List String) (key : String) (tree : Tree)

/-- Reads a line up to its last token. -/
def line : List Char → Reading Line
  | '[' :: '[' :: text =>
    (key (skipSpace text)).andThen fun (path, last) rest =>
      match skipSpace rest with
      | ']' :: ']' :: rest => some (.addTable path last, rest)
      | _ => none
  | '[' :: text =>
    (key (skipSpace text)).andThen fun (path, last) rest =>
      match skipSpace rest with
      | ']' :: rest => some (.openTable path last, rest)
      | _ => none
  | text =>
    (key text).andThen fun (path, last) rest =>
      match skipSpace rest with
      | '=' :: rest => (value maxDepth (skipSpace rest)).map (.define path last)
      | _ => none

/-- The lines of a file, at most `count` of them. -/
def linesOf : (count : Nat) → List Char → Option (List Line)
  | 0, _ => none
  | count + 1, text => do
    match ← skipTrivia false text with
    | [] => some []
    | text =>
      let (first, rest) ← line text
      let rest ← lineEnd false rest
      return first :: (← linesOf count rest)

/-- Adds the lines to the entries before; `header` is the way to the table opened last. -/
def assemble : (header : List String) → Entries → List Line → Option Entries
  | _, entries, [] => some entries
  | header, entries, .define path last tree :: rest =>
    (entries.defineIn header path last tree).bind (assemble header · rest)
  | _, entries, .openTable path last :: rest =>
    (entries.openTable path last).bind (assemble (path ++ [last]) · rest)
  | _, entries, .addTable path last :: rest =>
    (entries.addTable path last).bind (assemble (path ++ [last]) · rest)

/-- The text without a byte order mark at its start. -/
def dropByteOrderMark : List Char → List Char
  | '\ufeff' :: rest => rest
  | text => text

/-- Reads a whole text. -/
def read (text : String) : Option Tree := do
  let text := dropByteOrderMark text.toList
  let lines ← linesOf (text.length + 1) text
  return .table (treesOf (← assemble [] [] lines))

end PlanScribe.Toml
