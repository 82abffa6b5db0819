import PlanScribe.Tree.Basic

/-!
# JSON

A strict reader: no byte order mark, no raw control characters in strings, no lone surrogates, no
trailing commas, and only white space after the value. Arrays and objects nest at most 127 deep.
-/
namespace PlanScribe.Json

/-- The number of containers that may stand inside one another. -/
def maxDepth : Nat := 127

def isSpace (c : Char) : Bool := c == ' ' || c == '\n' || c == '\t' || c == '\r'

def skipSpace (text : List Char) : List Char := text.dropWhile isSpace

/-- The character that a backslash and a letter stand for. -/
def escape? : Char → Option Char
  | '"' => some '"'
  | '\\' => some '\\'
  | '/' => some '/'
  | 'b' => some '\x08'
  | 'f' => some '\x0c'
  | 'n' => some '\n'
  | 'r' => some '\r'
  | 't' => some '\t'
  | _ => none

def isHighSurrogate (n : Nat) : Bool := 0xD800 ≤ n && n ≤ 0xDBFF

def isLowSurrogate (n : Nat) : Bool := 0xDC00 ≤ n && n ≤ 0xDFFF

/-- The character that a pair of surrogates stands for. -/
def joinSurrogates (high low : Nat) : Char :=
  Char.ofNat (0x10000 + (high - 0xD800) * 0x400 + (low - 0xDC00))

/-- The rest of a string whose opening quotation mark was read. -/
def stringRest : List Char → Reading (List Char)
  | [] => none
  | '"' :: rest => some ([], rest)
  | '\\' :: 'u' :: a :: b :: c :: d :: rest =>
    match hexValue? [a, b, c, d] with
    | none => none
    | some unit =>
      if isHighSurrogate unit then
        match rest with
        | '\\' :: 'u' :: e :: f :: g :: h :: more =>
          match hexValue? [e, f, g, h] with
          | none => none
          | some low =>
            if isLowSurrogate low then (stringRest more).map (joinSurrogates unit low :: ·)
            else none
        | _ => none
      else if isLowSurrogate unit then none
      else (stringRest rest).map (Char.ofNat unit :: ·)
  | '\\' :: c :: rest =>
    match escape? c with
    | none => none
    | some plain => (stringRest rest).map (plain :: ·)
  | c :: rest => if c.toNat < 0x20 then none else (stringRest rest).map (c :: ·)

/-- A string, which starts with a quotation mark. -/
def string : List Char → Reading String
  | '"' :: rest => (stringRest rest).map String.ofList
  | _ => none

/-- The digits at the front of the text; there must be one. -/
def digits (text : List Char) : Reading (List Char) :=
  match text.takeWhile Char.isDigit with
  | [] => none
  | run => some (run, text.dropWhile Char.isDigit)

/-- The whole part of a number: a zero, or digits that do not start with one. -/
def wholePart : List Char → Reading (List Char)
  | '0' :: rest => some (['0'], rest)
  | text => digits text

/-- The fraction of a number; tells whether there is one. -/
def fraction : List Char → Reading Bool
  | '.' :: rest => (digits rest).map fun _ => true
  | text => some (false, text)

/-- The exponent of a number; tells whether there is one. -/
def exponent : List Char → Reading Bool
  | c :: rest =>
    if c == 'e' || c == 'E' then
      let unsigned := match rest with
        | '+' :: more | '-' :: more => more
        | _ => rest
      (digits unsigned).map fun _ => true
    else some (false, c :: rest)
  | [] => some (false, [])

/-- A number. It is an integer if it has neither fraction nor exponent and is not a negative
zero. -/
def number (text : List Char) : Reading Tree :=
  let negative := text.head? == some '-'
  (wholePart (if negative then text.drop 1 else text)).andThen fun whole rest =>
  (fraction rest).andThen fun hasFraction rest =>
  (exponent rest).andThen fun hasExponent rest =>
    let magnitude := digitsValue 10 whole
    if hasFraction || hasExponent || (negative && magnitude == 0) then
      some (.decimal (String.ofList (text.take (text.length - rest.length))), rest)
    else some (.integer (if negative then -magnitude else magnitude), rest)

/-- The items of an array after its opening bracket, at most `count` of them. -/
def items (value : List Char → Reading Tree) : (count : Nat) → List Char → Reading (List Tree)
  | 0, _ => none
  | count + 1, text =>
    (value (skipSpace text)).andThen fun item rest =>
      match skipSpace rest with
      | ',' :: rest => (items value count rest).map (item :: ·)
      | ']' :: rest => some ([item], rest)
      | _ => none

/-- An entry of an object: a key, a colon and a value. -/
def entry (value : List Char → Reading Tree) (text : List Char) : Reading (String × Tree) :=
  (string (skipSpace text)).andThen fun key rest =>
    match skipSpace rest with
    | ':' :: rest => (value (skipSpace rest)).map (key, ·)
    | _ => none

/-- The entries of an object after its opening brace, at most `count` of them. -/
def entries (value : List Char → Reading Tree) :
    (count : Nat) → List Char → Reading (List (String × Tree))
  | 0, _ => none
  | count + 1, text =>
    (entry value text).andThen fun first rest =>
      match skipSpace rest with
      | ',' :: rest => (entries value count rest).map (first :: ·)
      | '\x7d' :: rest => some ([first], rest)
      | _ => none

/-- A literal name at the front of the text. -/
def literal (name : String) (tree : Tree) (text : List Char) : Reading Tree :=
  if name.toList.isPrefixOf text then some (tree, text.drop name.length) else none

/-- A value at the front of the text, with containers at most `depth` deep. -/
def value : (depth : Nat) → List Char → Reading Tree
  | depth, text =>
    match text with
    | '"' :: rest => (stringRest rest).map fun cs => .text (String.ofList cs)
    | 'n' :: _ => literal "null" .null text
    | 't' :: _ => literal "true" (.boolean true) text
    | 'f' :: _ => literal "false" (.boolean false) text
    | '[' :: rest =>
      match depth with
      | 0 => none
      | inner + 1 =>
        match skipSpace rest with
        | ']' :: rest => some (.array [], rest)
        | _ => (items (value inner) rest.length rest).map .array
    | '\x7b' :: rest =>
      match depth with
      | 0 => none
      | inner + 1 =>
        match skipSpace rest with
        | '\x7d' :: rest => some (.table [], rest)
        | _ => (entries (value inner) rest.length rest).map .table
    | _ => number text

/-- Reads a whole text. -/
def read (text : String) : Option Tree :=
  match value maxDepth (skipSpace text.toList) with
  | some (tree, rest) => if (skipSpace rest).isEmpty then some tree else none
  | none => none

end PlanScribe.Json
