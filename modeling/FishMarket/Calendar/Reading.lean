import FishMarket.Calendar.Instant
import FishMarket.Text.Blank

/-! # Reading dates and times

The written forms of dates, times of day and instants, read leniently: blanks may stand around
the fields, a month may have one digit, seconds may be missing from a time of day, and digits of
a fraction beyond the ninth are dropped. An instant needs an offset from UTC, and is converted.
-/

namespace FishMarket.Calendar

namespace Reading

open Text

/-- One to `most` digits, which follow at once. -/
def digitRun (most : Nat) (text : List Char) : Option (Nat × List Char) :=
  let digits := (text.take most).takeWhile isDigit
  if digits.isEmpty then none
  else some (valueOfDigits digits, text.drop digits.length)

/-- Skips blanks and reads one to `most` digits. -/
def number (most : Nat) (text : List Char) : Option (Nat × List Char) :=
  digitRun most (dropBlanks text)

/-- Takes the given character off the front. -/
def literal (c : Char) : List Char → Option (List Char)
  | [] => none
  | d :: rest => if d = c then some rest else none

/-- Skips blanks and takes the given character off the front. -/
def separator (c : Char) (text : List Char) : Option (List Char) :=
  literal c (dropBlanks text)

/-- A year: up to four digits without a sign, any number of digits with one. -/
def year (text : List Char) : Option (Int × List Char) :=
  match dropBlanks text with
  | '-' :: rest => (digitRun rest.length rest).map fun (value, rest) => (-(value : Int), rest)
  | '+' :: rest => (digitRun rest.length rest).map fun (value, rest) => ((value : Int), rest)
  | start => (digitRun 4 start).map fun (value, rest) => ((value : Int), rest)

/-- Year, month and day with hyphens between them. -/
def datePart (text : List Char) : Option (Date × List Char) := do
  let (year, text) ← year text
  let text ← separator '-' text
  let (month, text) ← number 2 text
  let text ← separator '-' text
  let (day, text) ← number 2 text
  let date ← Date.ofCivil? year month day
  return (date, text)

/-- Hour and minute with a colon between them. -/
def clockPart (text : List Char) : Option ((Nat × Nat) × List Char) := do
  let (hour, text) ← number 2 text
  let text ← separator ':' text
  let (minute, text) ← number 2 text
  return ((hour, minute), text)

/-- A fraction of a second in nanoseconds, zero where no point follows. -/
def fractionPart : List Char → Option (Nat × List Char)
  | '.' :: text =>
    let digits := (text.take 9).takeWhile isDigit
    if digits.isEmpty then none
    else some (valueOfDigits digits * Nat.pow 10 (9 - digits.length), text.dropWhile isDigit)
  | text => some (0, text)

/-- A colon, the second and its fraction. -/
def secondPart (text : List Char) : Option ((Nat × Nat) × List Char) := do
  let text ← separator ':' text
  let (second, text) ← number 2 text
  let (fraction, text) ← fractionPart text
  return ((second, fraction), text)

/-- Exactly two digits. -/
def twoDigits : List Char → Option (Nat × List Char)
  | a :: b :: rest => do
    let tens ← digitValue? a
    let ones ← digitValue? b
    return (10 * tens + ones, rest)
  | _ => none

/-- The sign of an offset: plus, hyphen or minus sign. -/
def offsetSign : List Char → Option (Int × List Char)
  | '+' :: rest => some (1, rest)
  | '-' :: rest => some (-1, rest)
  | '\u2212' :: rest => some (-1, rest)
  | _ => none

/-- An offset from UTC in minutes, shorter than a day: `Z`, the word `UTC`, or a sign, hours and
minutes, which colons and blanks may divide. -/
def offsetPart : List Char → Option (Int × List Char)
  | 'Z' :: rest => some (0, rest)
  | 'z' :: rest => some (0, rest)
  | text =>
    if (text.take 3).map Char.toUpper = ['U', 'T', 'C'] then some (0, text.drop 3)
    else do
      let (sign, text) ← offsetSign text
      let (hours, text) ← twoDigits text
      let (minutes, text) ← twoDigits (text.dropWhile fun c => c = ':' || isBlank c)
      if minutes < 60 ∧ hours < 24 then some (sign * (60 * hours + minutes), text) else none

/-- The value read, if only blanks are left. -/
def complete {α : Type} : α × List Char → Option α
  | (value, rest) => if (dropBlanks rest).isEmpty then some value else none

end Reading

open Reading Text

/-- Reads a date. -/
def Date.read? (text : List Char) : Option Date :=
  datePart text >>= complete

/-- Reads a time of day, with or without seconds. -/
def TimeOfDay.read? (text : List Char) : Option TimeOfDay := do
  let ((hour, minute), text) ← clockPart text
  let ((second, fraction), text) ←
    if (dropBlanks text).isEmpty then some ((0, 0), text) else secondPart text
  let time ← TimeOfDay.ofFields? hour minute second fraction
  complete (time, text)

/-- Reads an instant: a date, one of `T`, `t` and a space, a time of day with seconds, and the
offset of the clock that shows them. Its date in UTC has to be one of the supported dates. -/
def Instant.read? (text : List Char) : Option Instant := do
  let (date, text) ← datePart text
  let text ← literal 'T' text <|> literal 't' text <|> literal ' ' text
  let ((hour, minute), text) ← clockPart text
  let ((second, fraction), text) ← secondPart text
  let (offset, text) ← offsetPart (dropBlanks text)
  let time ← TimeOfDay.ofFields? hour minute second fraction
  let instant := Instant.addMinutes ⟨date, time⟩ (-offset)
  if instant.date.Representable then complete (instant, text) else none

end FishMarket.Calendar
