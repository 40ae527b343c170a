import FishMarket.Text.Decimal

/-! # Dates

Dates of the proleptic Gregorian calendar, kept as a count of days so that order and shifts are
those of the integers. Year, month and day are views of the count; `Date.ofCivil?` goes the other
way and refuses what is no day of the calendar or lies outside the supported years.
-/

namespace FishMarket.Calendar

/-- A day, counted from 1 January 1970. -/
structure Date where
  /-- Days since 1 January 1970, negative before it. -/
  dayNumber : Int
deriving DecidableEq, Repr, Inhabited

namespace Date

instance : LT Date := ⟨fun a b => a.dayNumber < b.dayNumber⟩

instance : LE Date := ⟨fun a b => a.dayNumber ≤ b.dayNumber⟩

instance (a b : Date) : Decidable (a < b) := Int.decLt _ _

instance (a b : Date) : Decidable (a ≤ b) := Int.decLe _ _

/-- The day so many days later. -/
def addDays (date : Date) (days : Int) : Date :=
  ⟨date.dayNumber + days⟩

/-! ## Years that begin in March

Counted from March, the leap day is the last day of its year, so the days before a year depend
on the year alone and the days before a month on the month alone.
-/

/-- Days from 1 March of year 0 to 1 March of the given year. -/
def daysBeforeMarchYear (year : Int) : Int :=
  365 * year + year / 4 - year / 100 + year / 400

/-- Days from 1 March of year 0 to 1 January 1970. -/
def epochFromMarch : Int := 719468

/-- Days since 1 March of year 0. -/
def marchDay (date : Date) : Int :=
  date.dayNumber + epochFromMarch

/-- The year, counted from March, in which the day lies. The quotient is off by at most one. -/
def marchYear (date : Date) : Int :=
  let guess := date.marchDay * 400 / 146097
  if date.marchDay < daysBeforeMarchYear guess then guess - 1
  else if daysBeforeMarchYear (guess + 1) ≤ date.marchDay then guess + 1
  else guess

/-- Days since 1 March, from 0 to 365. -/
def dayOfMarchYear (date : Date) : Nat :=
  (date.marchDay - daysBeforeMarchYear date.marchYear).toNat

/-- Months since March, from 0 to 11. -/
def marchMonth (date : Date) : Nat :=
  (5 * date.dayOfMarchYear + 2) / 153

/-- Days from 1 March to the first day of the month so many months later. -/
def daysBeforeMarchMonth (month : Nat) : Nat :=
  (153 * month + 2) / 5

/-! ## Year, month and day -/

/-- The calendar year. -/
def year (date : Date) : Int :=
  if date.marchMonth < 10 then date.marchYear else date.marchYear + 1

/-- The month, from 1 to 12. -/
def month (date : Date) : Nat :=
  if date.marchMonth < 10 then date.marchMonth + 3 else date.marchMonth - 9

/-- The day of the month, from 1. -/
def day (date : Date) : Nat :=
  date.dayOfMarchYear - daysBeforeMarchMonth date.marchMonth + 1

/-- The date of a year, a month from 1 to 12 and a day counted from 1; a day past the end of its
month runs on into the next one. -/
def ofCivil (year : Int) (month day : Nat) : Date :=
  let marchYear := if month < 3 then year - 1 else year
  let marchMonth := if month < 3 then month + 9 else month - 3
  ⟨daysBeforeMarchYear marchYear + daysBeforeMarchMonth marchMonth + day - 1 - epochFromMarch⟩

/-- Whether a year has a leap day. -/
def isLeapYear (year : Int) : Bool :=
  year % 4 = 0 && (year % 100 ≠ 0 || year % 400 = 0)

/-- The number of days of a month. -/
def daysInMonth (year : Int) (month : Nat) : Nat :=
  if month = 2 then (if isLeapYear year then 29 else 28)
  else if month = 4 ∨ month = 6 ∨ month = 9 ∨ month = 11 then 30
  else 31

/-- The first supported year. -/
def firstYear : Int := -262143

/-- The last supported year. -/
def lastYear : Int := 262142

/-- The first supported day, 1 January of the first supported year. -/
def first : Date := ofCivil firstYear 1 1

/-- The last supported day, 31 December of the last supported year. -/
def last : Date := ofCivil lastYear 12 31

/-- The dates that texts and records can hold. -/
def Representable (date : Date) : Prop :=
  first ≤ date ∧ date ≤ last

instance (date : Date) : Decidable date.Representable :=
  inferInstanceAs (Decidable (_ ∧ _))

/-- The date of a year, month and day, if the calendar has it within the supported years. -/
def ofCivil? (year : Int) (month day : Nat) : Option Date :=
  if firstYear ≤ year ∧ year ≤ lastYear ∧ 1 ≤ month ∧ month ≤ 12 ∧ 1 ≤ day ∧
      day ≤ daysInMonth year month then
    some (ofCivil year month day)
  else none

/-! ## Written form -/

/-- A year: four digits from 0 to 9999, and with its sign and at least four digits elsewhere. -/
def yearText (year : Int) : List Char :=
  if 0 ≤ year ∧ year ≤ 9999 then Text.padded 4 year.toNat
  else (if year < 0 then '-' else '+') :: Text.padded 4 year.natAbs

/-- Year, month and day with hyphens between them. -/
def text (date : Date) : List Char :=
  yearText date.year ++ '-' :: Text.padded 2 date.month ++ '-' :: Text.padded 2 date.day

end Date

end FishMarket.Calendar
