/-
ProcBook/Toml/Scalar.lean

Numbers, dates and times of a TOML document.  Nothing asks for their values, so it is only checked that
they are well-formed and in range.
-/
import ProcBook.Decimal.Double
import ProcBook.Text.Cut
import ProcBook.Text.Digit

namespace ProcBook.Toml

/-! ### Numbers -/

/-- The digits of a number in which underscores stand only between digits. -/
def digitsOf? (isDigit : Char → Bool) (text : List Char) : Option (List Char) :=
  let groups := Text.splitOn '_' text
  if groups.all fun group => !group.isEmpty && group.all isDigit then some groups.flatten else none

/-- The value of digits in some base. -/
def valueOf (base : Nat) (digits : List Char) : Nat :=
  digits.foldl (fun n c => n * base + (Text.hexDigit? c).getD 0) 0

/-- The text after a sign, and whether the sign is a minus. -/
def dropSign : List Char → Bool × List Char
  | '-' :: rest => (true, rest)
  | '+' :: rest => (false, rest)
  | text => (false, text)

/-- The digits of a decimal number that does not start with a superfluous zero. -/
def decimalDigits? (text : List Char) : Option (List Char) :=
  match digitsOf? Char.isDigit text with
  | some ('0' :: _ :: _) => none
  | digits? => digits?

/-- The greatest integer. -/
def maxInteger : Nat := Nat.pow 2 63 - 1

/-- Whether digits in some base make an integer that is not too great. -/
def isBaseInteger (base : Nat) (isDigit : Char → Bool) (text : List Char) : Bool :=
  (digitsOf? isDigit text).any fun digits => valueOf base digits ≤ maxInteger

/-- Whether a text is an integer. -/
def isInteger (text : List Char) : Bool :=
  match text with
  | '0' :: 'x' :: rest => isBaseInteger 16 (fun c => (Text.hexDigit? c).isSome) rest
  | '0' :: 'o' :: rest => isBaseInteger 8 (fun c => '0' ≤ c && c ≤ '7') rest
  | '0' :: 'b' :: rest => isBaseInteger 2 (fun c => c == '0' || c == '1') rest
  | _ =>
    let (negative, rest) := dropSign text
    (decimalDigits? rest).any fun digits =>
      valueOf 10 digits ≤ if negative then maxInteger + 1 else maxInteger

/-- Whether `digits * 10 ^ exponent` lies beyond all doubles.  Leading zeros of the digits do not
count. -/
def overflows (digits : List Char) (exponent : Int) : Bool :=
  let digits := digits.dropWhile (· == '0')
  let places : Int := digits.length + exponent
  if digits.isEmpty || places < 309 then false
  else if 309 < places then true
  else (Double.ofQuotient? (valueOf 10 digits * Nat.pow 10 exponent.toNat)
    (Nat.pow 10 (-exponent).toNat)).isNone

/-- The value of an exponent's text. -/
def exponent? (text : List Char) : Option Int :=
  let (negative, rest) := dropSign text
  (digitsOf? Char.isDigit rest).map fun digits =>
    let n : Int := valueOf 10 digits
    if negative then -n else n

/-- Whether a text is a number with a point, an exponent or both. -/
def isFloat (text : List Char) : Bool :=
  let (negative, rest) := dropSign text
  if rest == ['i', 'n', 'f'] || rest == ['n', 'a', 'n'] then true
  else
    let mantissa := rest.takeWhile fun c => c != 'e' && c != 'E'
    let power := rest.dropWhile fun c => c != 'e' && c != 'E'
    let whole := mantissa.takeWhile (· != '.')
    let fraction := mantissa.dropWhile (· != '.')
    if power.isEmpty && fraction.isEmpty then false
    else
      let fraction? := if fraction.isEmpty then some [] else digitsOf? Char.isDigit (fraction.drop 1)
      let power? := if power.isEmpty then some 0 else exponent? (power.drop 1)
      match decimalDigits? whole, fraction?, power? with
      | some whole, some fraction, some power =>
        negative || !overflows (whole ++ fraction) (power - fraction.length)
      | _, _, _ => false

/-! ### Dates and times -/

/-- The value of a text of exactly `width` digits. -/
def fixedDigits? (width : Nat) (text : List Char) : Option Nat :=
  if text.length == width && text.all Char.isDigit then some (valueOf 10 text) else none

/-- The number of days in a month. -/
def daysIn (year month : Nat) : Nat :=
  if month == 2 then
    if year % 4 == 0 && (year % 100 != 0 || year % 400 == 0) then 29 else 28
  else if month == 4 || month == 6 || month == 9 || month == 11 then 30
  else 31

/-- Whether a text is a date. -/
def isDate (text : List Char) : Bool :=
  match Text.splitOn '-' text with
  | [year, month, day] =>
    match fixedDigits? 4 year, fixedDigits? 2 month, fixedDigits? 2 day with
    | some year, some month, some day =>
      1 ≤ month && month ≤ 12 && 1 ≤ day && day ≤ daysIn year month
    | _, _, _ => false
  | _ => false

/-- Whether a text is two digits below a bound. -/
def isBelow (bound : Nat) (text : List Char) : Bool := (fixedDigits? 2 text).any (· < bound)

/-- Whether a text is a time.  A leap second counts. -/
def isTime (text : List Char) : Bool :=
  match Text.splitOn ':' text with
  | [hour, minute, second] =>
    let fraction := second.dropWhile (· != '.')
    isBelow 24 hour && isBelow 60 minute && isBelow 61 (second.takeWhile (· != '.')) &&
      (fraction.isEmpty || (1 < fraction.length && (fraction.drop 1).all Char.isDigit))
  | _ => false

/-- Whether a text is an offset from universal time. -/
def isOffset (text : List Char) : Bool :=
  match text with
  | [c] => c == 'Z' || c == 'z'
  | c :: rest =>
    (c == '+' || c == '-') &&
      match Text.splitOn ':' rest with
      | [hour, minute] => isBelow 24 hour && isBelow 60 minute
      | _ => false
  | [] => false

/-- Whether a text is a time with or without an offset. -/
def isOffsetTime (text : List Char) : Bool :=
  let isMark := fun c => c == 'Z' || c == 'z' || c == '+' || c == '-'
  let offset := text.dropWhile (!isMark ·)
  isTime (text.takeWhile (!isMark ·)) && (offset.isEmpty || isOffset offset)

/-- Whether a text is a date, a time, or both. -/
def isDateTime (text : List Char) : Bool :=
  let separates := fun c => c == 'T' || c == 't' || c == ' '
  match text.dropWhile (!separates ·) with
  | [] => isDate text || isTime text
  | _ :: time => isDate (text.takeWhile (!separates ·)) && isOffsetTime time

/-- Whether a text is a number, a date or a time. -/
def isScalar (text : List Char) : Bool := isInteger text || isFloat text || isDateTime text

end ProcBook.Toml
