import FishMarket.Calendar.BusinessTime

/-! # Instants on the clock of the market

An instant lies in a second, counted from 1970 on, and some nanoseconds into it. Shifting by minutes
shifts the count and leaves the nanoseconds alone, so the clock of the market runs like that of UTC,
leap seconds included, and its day is what the shifted count is divided into.
-/

namespace FishMarket.Calendar

theorem Date.lt_iff {date other : Date} : date < other ↔ date.dayNumber < other.dayNumber := Iff.rfl

theorem Date.le_iff {date other : Date} : date ≤ other ↔ date.dayNumber ≤ other.dayNumber := Iff.rfl

theorem Date.eq_iff {date other : Date} : date = other ↔ date.dayNumber = other.dayNumber := by
  rw [Date.mk.injEq]

namespace Instant

variable {instant other third : Instant}

/-- Seconds from the beginning of 1970 to the second in which an instant lies. -/
def epochSecond (instant : Instant) : Int :=
  instant.date.dayNumber * 86400 + instant.time.second

/-! ## Order -/

theorem lt_iff : instant < other ↔ instant.epochSecond < other.epochSecond ∨
    instant.epochSecond = other.epochSecond ∧ instant.time.nano < other.time.nano := by
  have hsecond := instant.time.second_lt
  have hother := other.time.second_lt
  change instant.date < other.date ∨ instant.date = other.date ∧
    (instant.time.second < other.time.second ∨
      instant.time.second = other.time.second ∧ instant.time.nano < other.time.nano) ↔ _
  rw [Date.lt_iff, Date.eq_iff]
  unfold secondsPerDay at hsecond hother
  unfold epochSecond
  omega

theorem eq_iff : instant = other ↔
    instant.epochSecond = other.epochSecond ∧ instant.time.nano = other.time.nano := by
  refine ⟨fun heq => heq ▸ ⟨rfl, rfl⟩, fun ⟨hepoch, hnano⟩ => ?_⟩
  obtain ⟨⟨day⟩, second, nano, hsecond, _⟩ := instant
  obtain ⟨⟨otherDay⟩, otherSecond, otherNano, hother, _⟩ := other
  unfold secondsPerDay at hsecond hother
  unfold epochSecond at hepoch
  obtain rfl : nano = otherNano := hnano
  obtain rfl : second = otherSecond := by dsimp only at hepoch; omega
  obtain rfl : day = otherDay := by dsimp only at hepoch; omega
  rfl

theorem le_iff : instant ≤ other ↔ instant.epochSecond < other.epochSecond ∨
    instant.epochSecond = other.epochSecond ∧ instant.time.nano ≤ other.time.nano := by
  change instant = other ∨ instant < other ↔ _
  rw [eq_iff, lt_iff]
  omega

theorem lt_of_lt_of_le (hlt : instant < other) (hle : other ≤ third) : instant < third := by
  rw [lt_iff] at *
  rw [le_iff] at hle
  omega

/-! ## Shifts -/

theorem epochSecond_addMinutes (instant : Instant) (minutes : Int) :
    (instant.addMinutes minutes).epochSecond = instant.epochSecond + 60 * minutes := by
  unfold epochSecond addMinutes Date.addDays
  dsimp only
  omega

/-- The day of an instant is the number of whole days before it. -/
theorem dayNumber_eq (instant : Instant) : instant.date.dayNumber = instant.epochSecond / 86400 := by
  have hsecond := instant.time.second_lt
  unfold secondsPerDay at hsecond
  unfold epochSecond
  omega

theorem dayNumber_businessDay (now : Instant) :
    now.businessDay.dayNumber = (now.epochSecond + 32400) / 86400 := by
  rw [businessDay, dayNumber_eq, toBusinessTime, epochSecond_addMinutes]
  rfl

/-- The business day does not go back. -/
theorem businessDay_mono {now later : Instant} (hle : now ≤ later) :
    now.businessDay ≤ later.businessDay := by
  rw [le_iff] at hle
  rw [Date.le_iff, dayNumber_businessDay, dayNumber_businessDay]
  omega

end Instant

/-! ## Business instants -/

/-- The clock of the market shows a time nine hours before that of UTC does. Only what it shows in
the first hours of the first supported day is read as if it were shown by the clock of UTC. -/
theorem businessInstant_cases {day : Date} (hday : day.Representable) (time : TimeOfDay) :
    (businessInstant day time).time.nano = time.nano ∧
      ((businessInstant day time).epochSecond = day.dayNumber * 86400 + time.second - 32400 ∨
        day = Date.first ∧ time.second < 32400 ∧
          (businessInstant day time).epochSecond = day.dayNumber * 86400 + time.second) := by
  unfold businessInstant
  extract_lets instant
  have hepoch : instant.epochSecond = day.dayNumber * 86400 + time.second - 32400 :=
    Instant.epochSecond_addMinutes ⟨day, time⟩ (-businessOffsetMinutes)
  split
  next => exact ⟨rfl, .inl hepoch⟩
  next hearly =>
    -- a time that is at most a day away from a supported day can only be too early
    have hsecond := time.second_lt
    have hnumber := instant.dayNumber_eq
    obtain ⟨hfirst, hlast⟩ := hday
    unfold Date.Representable at hearly
    unfold secondsPerDay at hsecond
    rw [Date.le_iff] at hfirst hlast
    rw [Date.le_iff, Date.le_iff] at hearly
    refine ⟨rfl, .inr ⟨?_, ?_, rfl⟩⟩
    · rw [Date.eq_iff]
      omega
    · omega

end FishMarket.Calendar
