import FishMarket.Text.Decimal

/-! # Times of day

A time of day to the nanosecond. A leap second is kept inside the second it follows: nanoseconds
from one thousand million upward belong to the second after it. In the last second of a minute this
is second 60. Any other second may have them as well, and is then written like the next one.
-/

namespace FishMarket.Calendar

/-- Seconds of a day without leap seconds. -/
def secondsPerDay : Nat := 86400

/-- Nanoseconds of a second. -/
def nanosPerSecond : Nat := 1000000000

/-- A time of day. -/
structure TimeOfDay where
  /-- Whole seconds since midnight. -/
  second : Nat
  /-- Nanoseconds into the second; from `nanosPerSecond` upward, into the leap second after it. -/
  nano : Nat
  second_lt : second < secondsPerDay
  nano_lt : nano < 2 * nanosPerSecond
deriving DecidableEq, Repr

namespace TimeOfDay

/-- Order within the day: by second, then by nanosecond. -/
def Before (a b : TimeOfDay) : Prop :=
  a.second < b.second ∨ a.second = b.second ∧ a.nano < b.nano

instance : LT TimeOfDay := ⟨Before⟩

instance : LE TimeOfDay := ⟨fun a b => a = b ∨ a < b⟩

instance (a b : TimeOfDay) : Decidable (a < b) :=
  inferInstanceAs (Decidable (_ ∨ _))

instance (a b : TimeOfDay) : Decidable (a ≤ b) :=
  inferInstanceAs (Decidable (_ ∨ _))

/-- Midnight. -/
def midnight : TimeOfDay where
  second := 0
  nano := 0
  second_lt := by decide
  nano_lt := by decide

instance : Inhabited TimeOfDay := ⟨midnight⟩

/-- Whether a leap second, if it is one, is at the end of its minute. -/
def OnMinute (time : TimeOfDay) : Prop :=
  nanosPerSecond ≤ time.nano → time.second % 60 = 59

instance (time : TimeOfDay) : Decidable time.OnMinute :=
  inferInstanceAs (Decidable (_ → _))

/-- The hour, from 0 to 23. -/
def hour (time : TimeOfDay) : Nat :=
  time.second / 3600

/-- The minute, from 0 to 59. -/
def minute (time : TimeOfDay) : Nat :=
  time.second / 60 % 60

/-- The second of the minute, one more within a leap second. -/
def secondOfMinute (time : TimeOfDay) : Nat :=
  time.second % 60 + time.nano / nanosPerSecond

/-- Nanoseconds into the second shown by `secondOfMinute`. -/
def fraction (time : TimeOfDay) : Nat :=
  time.nano % nanosPerSecond

/-- The time with the given fields, a second of 60 being a leap second. -/
def ofFields? (hour minute second fraction : Nat) : Option TimeOfDay :=
  let wholeSecond := if second = 60 then 59 else second
  let nano := (if second = 60 then nanosPerSecond else 0) + fraction
  if h : hour < 24 ∧ minute < 60 ∧ second ≤ 60 ∧ fraction < nanosPerSecond then
    some {
      second := hour * 3600 + minute * 60 + wholeSecond
      nano := nano
      second_lt := by
        have : wholeSecond < 60 := by simp only [wholeSecond]; split <;> omega
        simp only [secondsPerDay]
        omega
      nano_lt := by
        have : nano < nanosPerSecond + nanosPerSecond := by
          simp only [nano]; split <;> omega
        omega }
  else none

/-- The fraction of a second: a point and three, six or nine digits, as few as are exact, and
nothing for a whole second. -/
def fractionText (fraction : Nat) : List Char :=
  if fraction = 0 then []
  else if fraction % 1000000 = 0 then '.' :: Text.padded 3 (fraction / 1000000)
  else if fraction % 1000 = 0 then '.' :: Text.padded 6 (fraction / 1000)
  else '.' :: Text.padded 9 fraction

/-- Hours, minutes and seconds with colons between them, and the fraction. -/
def text (time : TimeOfDay) : List Char :=
  Text.padded 2 time.hour ++ ':' :: Text.padded 2 time.minute ++
    ':' :: Text.padded 2 time.secondOfMinute ++ fractionText time.fraction

end TimeOfDay

end FishMarket.Calendar
