/-
**Numbers and dates.**

Which texts are numbers and which are dates or times. Digits of a number may be separated by single
underscores; a number in another base has no sign; a date and a time are joined by a letter or a
space. Integers have 64 bits. The fields of dates and times are counted and not read further.
-/

import SwiftBindings.Text.Cut

namespace SwiftBindings.Toml

open Text

/-- A decimal digit. -/
def isDigit (c : Char) : Bool := '0' ≤ c && c ≤ '9'

/-- A digit of a number in a base up to sixteen. -/
def isDigitIn (base : Nat) (c : Char) : Bool :=
  if isDigit c then decide (c.toNat - '0'.toNat < base)
  else base == 16 && (('a' ≤ c && c ≤ 'f') || ('A' ≤ c && c ≤ 'F'))

/-- One digit or more, with single underscores between digits. -/
def isDigits (base : Nat) (chars : List Char) : Bool :=
  (pieces '_' chars).all fun piece => !piece.isEmpty && piece.all (isDigitIn base)

/-- The value of digits in a base, underscores left out. -/
def valueIn (base : Nat) (chars : List Char) : Nat :=
  chars.foldl (fun value c =>
    if c = '_' then value
    else if isDigit c then base * value + (c.toNat - '0'.toNat)
    else base * value + (c.toLower.toNat - 'a'.toNat + 10)) 0

/-- Digits without a needless zero in front. -/
def isWhole (chars : List Char) : Bool :=
  isDigits 10 chars && (chars.head? != some '0' || chars.length == 1)

/-- The text without a sign in front, and whether it was a minus sign. -/
def withoutSign : List Char → Bool × List Char
  | '-' :: rest => (true, rest)
  | '+' :: rest => (false, rest)
  | chars => (false, chars)

/-- The number of integers that are not negative: two to the power of 63. -/
def integerBound : Nat := 9223372036854775808

/-- The text is an integer. -/
def isInteger (chars : List Char) : Bool :=
  match chars with
  | '0' :: 'x' :: digits => isDigits 16 digits && decide (valueIn 16 digits < integerBound)
  | '0' :: 'o' :: digits => isDigits 8 digits && decide (valueIn 8 digits < integerBound)
  | '0' :: 'b' :: digits => isDigits 2 digits && decide (valueIn 2 digits < integerBound)
  | _ =>
    let (negative, digits) := withoutSign chars
    isWhole digits && decide (valueIn 10 digits < integerBound + if negative then 1 else 0)

/-- The text is an exponent of ten with its sign. -/
def isExponent (chars : List Char) : Bool :=
  isDigits 10 (withoutSign chars).2

/-- The text is a number with a fraction, an exponent or both, or one of the words for infinity and
for no number. -/
def isFraction (chars : List Char) : Bool :=
  let (_, unsigned) := withoutSign chars
  let marked := unsigned.map fun c => if c = 'E' then 'e' else c
  let (mantissa, exponent) := match cutAt? 'e' marked with
    | some (mantissa, exponent) => (mantissa, some exponent)
    | none => (marked, none)
  let (whole, decimals) := match cutAt? '.' mantissa with
    | some (whole, decimals) => (whole, some decimals)
    | none => (mantissa, none)
  unsigned == ['i', 'n', 'f'] || unsigned == ['n', 'a', 'n'] ||
    ((exponent.isSome || decimals.isSome) && isWhole whole && decimals.all (isDigits 10) &&
      exponent.all isExponent)

/-- The text has the form of a pattern in which a zero stands for any digit. -/
def hasForm (pattern : String) (chars : List Char) : Bool :=
  chars.map (fun c => if isDigit c then '0' else c) == pattern.toList

/-- The text is a date. -/
def isDate (chars : List Char) : Bool := hasForm "0000-00-00" chars

/-- The text is a time, with digits below a second or without. -/
def isTime (chars : List Char) : Bool :=
  hasForm "00:00:00" (chars.take 8) &&
    match chars.drop 8 with
    | [] => true
    | '.' :: digits => !digits.isEmpty && digits.all isDigit
    | _ => false

/-- The text is a time with or without its distance from universal time. -/
def isZonedTime (chars : List Char) : Bool :=
  let distant := chars.drop (chars.length - 6)
  isTime chars ||
    match chars.reverse with
    | 'Z' :: rest | 'z' :: rest => isTime rest.reverse
    | _ => (hasForm "+00:00" distant || hasForm "-00:00" distant) && isTime (chars.take (chars.length - 6))

/-- The text is a date, a time, or a date and a time. -/
def isMoment (chars : List Char) : Bool :=
  isDate chars || isTime chars ||
    (isDate (chars.take 10) && isZonedTime (chars.drop 11) &&
      match chars.drop 10 with
      | 'T' :: _ | 't' :: _ | ' ' :: _ => true
      | _ => false)

end SwiftBindings.Toml
