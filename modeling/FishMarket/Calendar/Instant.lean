import FishMarket.Calendar.Date
import FishMarket.Calendar.TimeOfDay

/-! # Instants

A date together with a time of day. Read on the clock of UTC it is an instant; the same shape
serves for the reading of a local clock, a whole number of minutes away. Shifting by minutes
leaves the second of the minute alone, so leap seconds are carried along. A clock that counts
nanoseconds from the beginning of 1970 tells the instant as well. It knows no leap seconds.
-/

namespace FishMarket.Calendar

/-- Nanoseconds of a day. -/
def nanosPerDay : Int := 86400000000000

/-- A date and a time of day, by default on the clock of UTC. -/
structure Instant where
  date : Date
  time : TimeOfDay
deriving DecidableEq, Repr, Inhabited

namespace Instant

/-- Order by date, then by time of day. -/
def Before (a b : Instant) : Prop :=
  a.date < b.date ∨ a.date = b.date ∧ a.time < b.time

instance : LT Instant := ⟨Before⟩

instance : LE Instant := ⟨fun a b => a = b ∨ a < b⟩

instance (a b : Instant) : Decidable (a < b) :=
  inferInstanceAs (Decidable (_ ∨ _))

instance (a b : Instant) : Decidable (a ≤ b) :=
  inferInstanceAs (Decidable (_ ∨ _))

/-- The reading so many minutes later. -/
def addMinutes (instant : Instant) (minutes : Int) : Instant :=
  let shifted : Int := instant.time.second + 60 * minutes
  have bounds : 0 ≤ shifted % 86400 ∧ shifted % 86400 < 86400 := by omega
  { date := instant.date.addDays (shifted / 86400)
    time := {
      second := (shifted % 86400).toNat
      nano := instant.time.nano
      second_lt := by simp only [secondsPerDay]; omega
      nano_lt := instant.time.nano_lt } }

/-- The instant so many nanoseconds after the beginning of 1970. -/
def ofNanos (nanos : Int) : Instant :=
  let elapsed := (nanos % nanosPerDay).toNat
  have bound : elapsed < 86400000000000 := by
    have := Int.emod_lt_of_pos nanos (show (0 : Int) < 86400000000000 by decide)
    have := Int.emod_nonneg nanos (show (86400000000000 : Int) ≠ 0 by decide)
    simp only [elapsed, nanosPerDay]
    omega
  { date := ⟨nanos / nanosPerDay⟩
    time := {
      second := elapsed / 1000000000
      nano := elapsed % 1000000000
      second_lt := by simp only [secondsPerDay]; omega
      nano_lt := by simp only [nanosPerSecond]; omega } }

/-- Date and time of day with a `T` between them. -/
def clockText (instant : Instant) : List Char :=
  instant.date.text ++ 'T' :: instant.time.text

/-- The written form on the clock of UTC. -/
def text (instant : Instant) : List Char :=
  instant.clockText ++ ['Z']

end Instant

end FishMarket.Calendar
