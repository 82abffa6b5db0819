import PlanScribe.Tree.Basic

/-!
# Strings, comments and blanks of TOML

Line breaks are a line feed, or a carriage return directly before one. Comments and strings hold no
control character but the tab; strings over several lines also hold line breaks, which are kept as
they are written.
-/
namespace PlanScribe.Toml

/-- Space and tab. -/
def isSpace (c : Char) : Bool := c == ' ' || c == '\t'

def skipSpace (text : List Char) : List Char := text.dropWhile isSpace

/-- The character may stand in a comment or a string: it is a tab or no control character. -/
def isPrintable (c : Char) : Bool := c == '\t' || (0x20 ≤ c.toNat && c.toNat ≠ 0x7F)

/-- Skips spaces, line breaks and comments; `comment` tells whether the text starts inside one. -/
def skipTrivia : (comment : Bool) → List Char → Option (List Char)
  | _, [] => some []
  | _, '\n' :: rest => skipTrivia false rest
  | _, '\r' :: '\n' :: rest => skipTrivia false rest
  | true, c :: rest => if isPrintable c then skipTrivia true rest else none
  | false, c :: rest =>
    if isSpace c then skipTrivia false rest
    else if c == '#' then skipTrivia true rest
    else some (c :: rest)

/-- Skips what remains of a line after its last token: spaces, a comment and the line break. -/
def lineEnd : (comment : Bool) → List Char → Option (List Char)
  | _, [] => some []
  | _, '\n' :: rest => some rest
  | _, '\r' :: '\n' :: rest => some rest
  | true, c :: rest => if isPrintable c then lineEnd true rest else none
  | false, c :: rest =>
    if isSpace c then lineEnd false rest else if c == '#' then lineEnd true rest else none

/-- The character that a backslash and a letter stand for. -/
def escape? : Char → Option Char
  | '"' => some '"'
  | '\\' => some '\\'
  | 'b' => some '\x08'
  | 'e' => some '\x1b'
  | 'f' => some '\x0c'
  | 'n' => some '\n'
  | 'r' => some '\r'
  | 't' => some '\t'
  | _ => none

/-- The number of hexadecimal digits that follow a backslash and the letter. -/
def escapeDigits : Char → Nat
  | 'x' => 2
  | 'u' => 4
  | 'U' => 8
  | _ => 0

/-- The character with a code, if there is one. -/
def scalar? (code : Nat) : Option Char := if code.isValidChar then some (Char.ofNat code) else none

/-- The character that is written with hexadecimal digits. -/
def hexScalar? (digits : List Char) : Option Char := (hexValue? digits).bind scalar?

/-- Puts a character in front of what is read, if it is one. -/
def prepend? (c : Option Char) (reading : Reading (List Char)) : Reading (List Char) :=
  c.bind fun c => reading.map (c :: ·)

/-- The rest of a string on one line whose opening quotation mark was read. -/
def basicRest : List Char → Reading (List Char)
  | [] => none
  | '"' :: rest => some ([], rest)
  | '\\' :: 'x' :: a :: b :: rest =>
    prepend? (hexScalar? [a, b]) (basicRest rest)
  | '\\' :: 'u' :: a :: b :: c :: d :: rest =>
    prepend? (hexScalar? [a, b, c, d]) (basicRest rest)
  | '\\' :: 'U' :: a :: b :: c :: d :: e :: f :: g :: h :: rest =>
    prepend? (hexScalar? [a, b, c, d, e, f, g, h]) (basicRest rest)
  | '\\' :: c :: rest =>
    prepend? (escape? c) (basicRest rest)
  | c :: rest => if isPrintable c then (basicRest rest).map (c :: ·) else none

/-- The rest of a literal string on one line. -/
def literalRest : List Char → Reading (List Char)
  | [] => none
  | '\'' :: rest => some ([], rest)
  | c :: rest => if isPrintable c then (literalRest rest).map (c :: ·) else none

/-- The rest of a literal string over several lines. Up to two quotation marks more than the three
that end it belong to the string. -/
def longLiteralRest : List Char → Reading (List Char)
  | [] => none
  | '\'' :: '\'' :: '\'' :: '\'' :: '\'' :: rest => some (['\'', '\''], rest)
  | '\'' :: '\'' :: '\'' :: '\'' :: rest => some (['\''], rest)
  | '\'' :: '\'' :: '\'' :: rest => some ([], rest)
  | '\n' :: rest => (longLiteralRest rest).map ('\n' :: ·)
  | '\r' :: '\n' :: rest => (longLiteralRest rest).map ('\r' :: '\n' :: ·)
  | c :: rest => if isPrintable c then (longLiteralRest rest).map (c :: ·) else none

/-- Whether a reader of a long string stands behind a backslash at the end of a line: before the
line break, or after it. White space is skipped in both cases. -/
inductive Fold
  | off
  | beforeBreak
  | afterBreak
deriving DecidableEq, Repr

/-- The rest of a string over several lines. A backslash before a line break removes the break and
all white space that follows. -/
def longBasicRest : Fold → List Char → Reading (List Char)
  | _, [] => none
  | .beforeBreak, c :: rest =>
    if isSpace c then longBasicRest .beforeBreak rest
    else if c == '\n' then longBasicRest .afterBreak rest
    else if c == '\r' && rest.head? == some '\n' then longBasicRest .beforeBreak rest
    else none
  | _, '"' :: '"' :: '"' :: '"' :: '"' :: rest => some (['"', '"'], rest)
  | _, '"' :: '"' :: '"' :: '"' :: rest => some (['"'], rest)
  | _, '"' :: '"' :: '"' :: rest => some ([], rest)
  | _, '\\' :: 'x' :: a :: b :: rest =>
    prepend? (hexScalar? [a, b]) (longBasicRest .off rest)
  | _, '\\' :: 'u' :: a :: b :: c :: d :: rest =>
    prepend? (hexScalar? [a, b, c, d]) (longBasicRest .off rest)
  | _, '\\' :: 'U' :: a :: b :: c :: d :: e :: f :: g :: h :: rest =>
    prepend? (hexScalar? [a, b, c, d, e, f, g, h]) (longBasicRest .off rest)
  | _, '\\' :: c :: rest =>
    match escape? c with
    | some plain => (longBasicRest .off rest).map (plain :: ·)
    | none =>
      if isSpace c then longBasicRest .beforeBreak rest
      else if c == '\n' then longBasicRest .afterBreak rest
      else if c == '\r' && rest.head? == some '\n' then longBasicRest .beforeBreak rest
      else none
  | fold, '\r' :: '\n' :: rest =>
    if fold = .afterBreak then longBasicRest .afterBreak rest
    else (longBasicRest .off rest).map ('\r' :: '\n' :: ·)
  | fold, c :: rest =>
    if fold = .afterBreak && (isSpace c || c == '\n') then longBasicRest .afterBreak rest
    else if c == '\n' || isPrintable c then (longBasicRest .off rest).map (c :: ·)
    else none

/-- Drops a line break at the start of a string over several lines. -/
def dropBreak : List Char → List Char
  | '\n' :: rest => rest
  | '\r' :: '\n' :: rest => rest
  | text => text

/-- A string of any of the four kinds; `none` if the text does not start with a quotation mark. -/
def string (text : List Char) : Reading String :=
  Reading.map String.ofList <|
    match text with
    | '"' :: '"' :: '"' :: rest => longBasicRest .off (dropBreak rest)
    | '"' :: rest => basicRest rest
    | '\'' :: '\'' :: '\'' :: rest => longLiteralRest (dropBreak rest)
    | '\'' :: rest => literalRest rest
    | _ => none

/-- A string on one line. -/
def shortString (text : List Char) : Reading String :=
  Reading.map String.ofList <|
    match text with
    | '"' :: rest => basicRest rest
    | '\'' :: rest => literalRest rest
    | _ => none

end PlanScribe.Toml
