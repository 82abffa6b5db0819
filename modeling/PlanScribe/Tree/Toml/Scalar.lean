import PlanScribe.Tree.Basic

/-!
# Unquoted values of TOML

Booleans, integers in four bases, floating-point numbers, and dates and times. Single underscores
may separate digits. Of dates and times the calendar is checked, and seconds may be left out.
-/
namespace PlanScribe.Toml

/-- The digits of a number, without the single underscores between them; there must be a digit on
both sides of an underscore. -/
def ungroup (isDigit : Char → Bool) : List Char → Option (List Char)
  | [] => none
  | [c] => if isDigit c then some [c] else none
  | c :: '_' :: rest => if isDigit c then (ungroup isDigit rest).map (c :: ·) else none
  | c :: rest => if isDigit c then (ungroup isDigit rest).map (c :: ·) else none

/-- A digit of a base up to sixteen. -/
def isDigitOf (base : Nat) (c : Char) : Bool := (hexDigit? c).any (· < base)

/-- A sign at the front, and what follows it. -/
def splitSign : List Char → Bool × List Char
  | '-' :: rest => (true, rest)
  | '+' :: rest => (false, rest)
  | text => (false, text)

/-- The digits of a decimal number, which start with a zero only if there is no other digit. -/
def wholeDigits? (text : List Char) : Option (List Char) :=
  (ungroup Char.isDigit text).filter fun digits => digits.head? != some '0' || digits.length == 1

/-- An integer: decimal with an optional sign, or with a base mark and no sign. -/
def integer? : List Char → Option Int
  | '0' :: 'x' :: digits => (ungroup (isDigitOf 16) digits).map (digitsValue 16 ·)
  | '0' :: 'o' :: digits => (ungroup (isDigitOf 8) digits).map (digitsValue 8 ·)
  | '0' :: 'b' :: digits => (ungroup (isDigitOf 2) digits).map (digitsValue 2 ·)
  | text =>
    let (negative, digits) := splitSign text
    (wholeDigits? digits).map fun digits =>
      if negative then -(digitsValue 10 digits : Int) else digitsValue 10 digits

/-- The text in front of the first character that satisfies the test, and the text after it. -/
def splitAtFirst (test : Char → Bool) (text : List Char) : List Char × Option (List Char) :=
  let front := text.takeWhile fun c => !test c
  match text.dropWhile fun c => !test c with
  | [] => (front, none)
  | _ :: rest => (front, some rest)

/-- A floating-point number: infinity, not a number, or a decimal number with a fraction, an
exponent or both. -/
def isFloat (text : List Char) : Bool :=
  let unsigned := (splitSign text).2
  if unsigned == ['i', 'n', 'f'] || unsigned == ['n', 'a', 'n'] then true
  else
    let (mantissa, exponent) := splitAtFirst (fun c => c == 'e' || c == 'E') unsigned
    let (whole, fraction) := splitAtFirst (· == '.') mantissa
    (wholeDigits? whole).isSome
      && fraction.all (fun digits => (ungroup Char.isDigit digits).isSome)
      && exponent.all (fun digits => (ungroup Char.isDigit (splitSign digits).2).isSome)
      && (fraction.isSome || exponent.isSome)

/-- The number written with exactly the given digits. -/
def fixedDigits? (text : List Char) : Option Nat :=
  if text.all Char.isDigit then some (digitsValue 10 text) else none

/-- The number of days of a month. -/
def daysOfMonth (year month : Nat) : Nat :=
  if month == 2 then
    if year % 4 == 0 && (year % 100 != 0 || year % 400 == 0) then 29 else 28
  else if month == 4 || month == 6 || month == 9 || month == 11 then 30
  else 31

/-- A date of the calendar, as year, month and day. -/
def isDate : List Char → Bool
  | [y₁, y₂, y₃, y₄, '-', m₁, m₂, '-', d₁, d₂] =>
    match fixedDigits? [y₁, y₂, y₃, y₄], fixedDigits? [m₁, m₂], fixedDigits? [d₁, d₂] with
    | some year, some month, some day =>
      1 ≤ month && month ≤ 12 && 1 ≤ day && day ≤ daysOfMonth year month
    | _, _, _ => false
  | _ => false

/-- Two digits that stand for a number up to a bound. -/
def isTwoDigits (bound : Nat) (a b : Char) : Bool := (fixedDigits? [a, b]).any (· ≤ bound)

/-- What follows the minutes: nothing, or the seconds and perhaps a fraction of them. -/
def isSeconds : List Char → Bool
  | [] => true
  | [':', a, b] => isTwoDigits 60 a b
  | ':' :: a :: b :: '.' :: c :: fraction =>
    isTwoDigits 60 a b && (c :: fraction).all Char.isDigit
  | _ => false

/-- A time of day. -/
def isTime : List Char → Bool
  | h₁ :: h₂ :: ':' :: m₁ :: m₂ :: seconds =>
    isTwoDigits 23 h₁ h₂ && isTwoDigits 59 m₁ m₂ && isSeconds seconds
  | _ => false

/-- The text without the offset from universal time at its end, if it has a well-formed one. -/
def dropOffset (text : List Char) : List Char :=
  match text.reverse with
  | 'Z' :: time | 'z' :: time => time.reverse
  | m₂ :: m₁ :: ':' :: h₂ :: h₁ :: sign :: time =>
    if (sign == '+' || sign == '-') && isTwoDigits 23 h₁ h₂ && isTwoDigits 59 m₁ m₂ then
      time.reverse
    else text
  | _ => text

/-- The character separates a date from a time. -/
def joinsTime (c : Char) : Bool := c == 'T' || c == 't' || c == ' '

/-- A date, a time, or both with an optional offset. -/
def isMoment (text : List Char) : Bool :=
  isDate text || isTime text
    || (isDate (text.take 10) && (text.drop 10).head?.any joinsTime
      && isTime (dropOffset (text.drop 11)))

/-- The value of an unquoted text. -/
def scalar (text : List Char) : Option Tree :=
  if text == ['t', 'r', 'u', 'e'] then some (.boolean true)
  else if text == ['f', 'a', 'l', 's', 'e'] then some (.boolean false)
  else match integer? text with
    | some n => some (.integer n)
    | none =>
      if isFloat text then some (.decimal (String.ofList text))
      else if isMoment text then some (.moment (String.ofList text))
      else none

/-- A character of an unquoted value. -/
def isScalarChar (c : Char) : Bool :=
  c.isAlphanum || c == '_' || c == '+' || c == '-' || c == '.' || c == ':'

/-- An unquoted value at the front of the text. A time may follow a date after a single space. -/
def unquoted (text : List Char) : Reading Tree :=
  let word := text.takeWhile isScalarChar
  let rest := text.dropWhile isScalarChar
  let next := (rest.drop 1).takeWhile isScalarChar
  if isDate word && rest.head? == some ' ' && next.head?.any Char.isDigit then
    (scalar (word ++ ' ' :: next)).map (·, (rest.drop 1).dropWhile isScalarChar)
  else (scalar word).map (·, rest)

end PlanScribe.Toml
