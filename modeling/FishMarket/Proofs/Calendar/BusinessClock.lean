import FishMarket.Proofs.Calendar.BusinessTime
import FishMarket.Proofs.Calendar.Civil

/-! # What the clock of the market shows, and when

A calendar and a clock show a reading field by field, and readings follow each other as their fields
do, if leap seconds are at the end of a minute. The clock of the market shows each reading of the
supported dates, except for the nine hours that it would have to show before the first of them
begins in UTC. From what it shows the instant can be told, and from the instant what it shows, in
the same order.
-/

namespace FishMarket.Calendar

/-- Times of day are ordered by hour, minute, second and fraction. A leap second is second 60. -/
theorem TimeOfDay.lt_iff_fields {time other : TimeOfDay} (htime : time.OnMinute)
    (hother : other.OnMinute) : time < other ↔
    time.hour < other.hour ∨ time.hour = other.hour ∧ (time.minute < other.minute ∨
      time.minute = other.minute ∧ (time.secondOfMinute < other.secondOfMinute ∨
        time.secondOfMinute = other.secondOfMinute ∧ time.fraction < other.fraction)) := by
  have hnano := time.nano_lt
  have hotherNano := other.nano_lt
  change time.second < other.second ∨ time.second = other.second ∧ time.nano < other.nano ↔ _
  unfold OnMinute hour minute secondOfMinute fraction nanosPerSecond at *
  omega

namespace Instant

variable {instant reading other now : Instant}

/-- What a calendar and a clock show, from the year down to the fraction of a second. -/
def fields (reading : Instant) : List Int :=
  [reading.date.year, reading.date.month, reading.date.day, reading.time.hour, reading.time.minute,
    reading.time.secondOfMinute, reading.time.fraction]

/-- Readings follow each other as their fields do. -/
theorem lt_iff_fields (hreading : reading.time.OnMinute) (hother : other.time.OnMinute) :
    reading < other ↔ reading.fields < other.fields := by
  have hdates : reading.date = other.date ↔ reading.date.year = other.date.year ∧
      reading.date.month = other.date.month ∧ reading.date.day = other.date.day :=
    ⟨fun heq => heq ▸ ⟨rfl, rfl, rfl⟩, fun ⟨hyear, hmonth, hday⟩ =>
      Date.civil_injective hyear hmonth hday⟩
  change reading.date < other.date ∨ reading.date = other.date ∧ reading.time < other.time ↔ _
  rw [hdates, Date.lt_iff_civil, TimeOfDay.lt_iff_fields hreading hother]
  simp only [fields, List.cons_lt_cons_iff, List.not_lt_nil, Int.ofNat_lt, Int.ofNat_inj, and_false,
    or_false]
  omega

/-! ## Shifts back and forth -/

theorem addMinutes_neg (instant : Instant) (minutes : Int) :
    (instant.addMinutes minutes).addMinutes (-minutes) = instant := by
  rw [eq_iff, epochSecond_addMinutes, epochSecond_addMinutes]
  exact ⟨by omega, rfl⟩

theorem addMinutes_lt_iff (minutes : Int) :
    instant.addMinutes minutes < other.addMinutes minutes ↔ instant < other := by
  have hnano (instant : Instant) :
      (instant.addMinutes minutes).time.nano = instant.time.nano := rfl
  rw [lt_iff, lt_iff, epochSecond_addMinutes, epochSecond_addMinutes, hnano, hnano]
  omega

theorem date_le_of_lt (hlt : instant < other) : instant.date ≤ other.date := by
  rw [lt_iff] at hlt
  rw [Date.le_iff, dayNumber_eq, dayNumber_eq]
  omega

theorem toBusinessTime_addMinutes (reading : Instant) :
    (reading.addMinutes (-businessOffsetMinutes)).toBusinessTime = reading := by
  have hback := reading.addMinutes_neg (-businessOffsetMinutes)
  rwa [Int.neg_neg] at hback

/-! ## What is shown -/

/-- Whether the clock of the market shows a reading at some instant of the supported dates. -/
def IsShown (reading : Instant) : Prop :=
  ∃ now : Instant, now.date.Representable ∧ now.toBusinessTime = reading

/-- The clock is ahead of UTC, so a reading of the supported dates could only be shown too early. -/
theorem isShown_iff_first_le (hdate : reading.date.Representable) :
    reading.IsShown ↔ Date.first ≤ (reading.addMinutes (-businessOffsetMinutes)).date := by
  constructor
  · rintro ⟨now, hnow, rfl⟩
    rw [toBusinessTime, addMinutes_neg]
    exact hnow.1
  · intro hfirst
    have hbefore : reading.addMinutes (-businessOffsetMinutes) < reading := by
      rw [lt_iff, epochSecond_addMinutes, businessOffsetMinutes]
      omega
    exact ⟨_, ⟨hfirst, Int.le_trans (date_le_of_lt hbefore) hdate.2⟩,
      reading.toBusinessTime_addMinutes⟩

/-- Only the first nine hours of the first day are not shown. -/
theorem isShown_iff (hdate : reading.date.Representable) :
    reading.IsShown ↔ Date.first < reading.date ∨ 9 ≤ reading.time.hour := by
  have hfirst := hdate.1
  have hsecond := reading.time.second_lt
  rw [isShown_iff_first_le hdate, Date.le_iff, dayNumber_eq, epochSecond_addMinutes,
    businessOffsetMinutes, epochSecond, TimeOfDay.hour]
  rw [Date.le_iff] at hfirst
  rw [Date.lt_iff]
  unfold secondsPerDay at hsecond
  omega

theorem IsShown.later (hshown : reading.IsShown) (hreading : reading.date.Representable)
    (hother : other.date.Representable) (hlt : reading < other) : other.IsShown := by
  rw [isShown_iff_first_le hreading] at hshown
  rw [isShown_iff_first_le hother]
  exact Int.le_trans hshown (date_le_of_lt ((addMinutes_lt_iff _).mpr hlt))

/-! ## There and back -/

/-- The business instant of what the clock shows is the instant at which it does. -/
theorem businessInstant_toBusinessTime (hnow : now.date.Representable) :
    businessInstant now.toBusinessTime.date now.toBusinessTime.time = now := by
  have hback : addMinutes ⟨now.toBusinessTime.date, now.toBusinessTime.time⟩
      (-businessOffsetMinutes) = now := now.addMinutes_neg businessOffsetMinutes
  rw [businessInstant, hback]
  exact if_pos hnow

theorem toBusinessTime_businessInstant (hshown : reading.IsShown) :
    (businessInstant reading.date reading.time).toBusinessTime = reading := by
  obtain ⟨now, hnow, rfl⟩ := hshown
  rw [businessInstant_toBusinessTime hnow]

theorem businessInstant_lt_businessInstant (hshown : reading.IsShown)
    (hreading : reading.date.Representable) (hother : other.date.Representable)
    (hlt : reading < other) :
    businessInstant reading.date reading.time < businessInstant other.date other.time := by
  obtain ⟨later, hlater, rfl⟩ := hshown.later hreading hother hlt
  obtain ⟨now, hnow, rfl⟩ := hshown
  rw [businessInstant_toBusinessTime hnow, businessInstant_toBusinessTime hlater]
  exact (addMinutes_lt_iff businessOffsetMinutes).mp hlt

end Instant

/-- The clock of the market shows each time of each day of the calendar, except for the first nine
hours of all. What it shows, it shows at the business instant, nine hours earlier on the clock of
UTC, and on that business day; and the business instant of what it shows at some instant is that
instant. Business instants follow each other as what is shown does, which is the order of its fields
if leap seconds are at the end of a minute, and business days as the instants. -/
theorem business_clock_goes_both_ways :
    (∀ (year : Int) (month dayOfMonth : Nat) (day : Date) (time : TimeOfDay),
      Date.ofCivil? year month dayOfMonth = some day →
        (Instant.IsShown ⟨day, time⟩ ↔ Date.first < day ∨ 9 ≤ time.hour) ∧
        (Instant.IsShown ⟨day, time⟩ →
          let instant := businessInstant day time
          instant.toBusinessTime = ⟨day, time⟩ ∧
          instant.toBusinessTime.fields = [year, month, dayOfMonth, time.hour, time.minute,
            time.secondOfMinute, time.fraction] ∧
          instant.businessDay = day ∧
          instant.epochSecond = Instant.epochSecond ⟨day, time⟩ - 9 * 3600)) ∧
    (∀ now : Instant, now.date.Representable →
      businessInstant now.toBusinessTime.date now.toBusinessTime.time = now) ∧
    (∀ reading other : Instant, reading.date.Representable → reading.IsShown →
      other.date.Representable → reading < other →
        businessInstant reading.date reading.time < businessInstant other.date other.time) ∧
    (∀ reading other : Instant, reading.time.OnMinute → other.time.OnMinute →
      (reading < other ↔ reading.fields < other.fields)) ∧
    ∀ now later : Instant, now ≤ later → now.businessDay ≤ later.businessDay := by
  refine ⟨fun year month dayOfMonth day time hday => ?_,
    fun now hnow => Instant.businessInstant_toBusinessTime hnow,
    fun _ _ hreading hshown hother hlt =>
      Instant.businessInstant_lt_businessInstant hshown hreading hother hlt,
    fun _ _ hreading hother => Instant.lt_iff_fields hreading hother,
    fun now later hle => Instant.businessDay_mono hle⟩
  obtain ⟨hdate, rfl, rfl, rfl⟩ := Date.ofCivil?_eq_some_iff.mp hday
  refine ⟨Instant.isShown_iff hdate, fun hshown => ?_⟩
  have hback : (businessInstant day time).toBusinessTime = ⟨day, time⟩ :=
    Instant.toBusinessTime_businessInstant hshown
  have hepoch := congrArg Instant.epochSecond hback
  rw [Instant.toBusinessTime, Instant.epochSecond_addMinutes, businessOffsetMinutes] at hepoch
  refine ⟨hback, congrArg Instant.fields hback, congrArg Instant.date hback, ?_⟩
  omega

/-- On the first of March the clock shows the leap second at the end of the leap day in UTC. -/
theorem business_clock_shows_leap_second :
    let time : TimeOfDay := ⟨32399, 1500000000, by decide, by decide⟩
    Date.ofCivil? 2024 3 1 = some ⟨19783⟩ ∧ Instant.IsShown ⟨⟨19783⟩, time⟩ ∧
      (businessInstant ⟨19783⟩ time).toBusinessTime.fields = [2024, 3, 1, 8, 59, 60, 500000000] ∧
      (businessInstant ⟨19783⟩ time).fields = [2024, 2, 29, 23, 59, 60, 500000000] := by
  intro time
  have hday : Date.ofCivil? 2024 3 1 = some ⟨19783⟩ := by decide
  obtain ⟨hiff, hshows⟩ := business_clock_goes_both_ways.1 2024 3 1 ⟨19783⟩ time hday
  have hshown : Instant.IsShown ⟨⟨19783⟩, time⟩ := hiff.mpr (.inl (by decide))
  exact ⟨hday, hshown, (hshows hshown).2.1.trans (by decide), by decide⟩

end FishMarket.Calendar
