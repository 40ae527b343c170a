import FishMarket.Proofs.Calendar.BusinessTime
import FishMarket.Proofs.Market.Lifecycle

/-! # Deadlines of auctions

Whether an auction is overdue is found out in two steps: by the business day, and on the day of the
auction by its end. Both together come to one deadline on the clock of UTC, which is passed once and
for all.
-/

namespace FishMarket.Auction

open Calendar

variable {auction : Auction} {now : Instant}

theorem isOverdue_iff : auction.isOverdue now = true ↔ auction.status.isTerminal = false ∧
    (auction.date < now.businessDay ∨ ∃ endTime, auction.endTime? = some endTime ∧
      auction.date = now.businessDay ∧ businessInstant auction.date endTime < now) := by
  unfold isOverdue
  cases auction.endTime? <;> simp

/-- With an end, an auction is overdue after the instant of its end. -/
theorem isOverdue_iff_of_end (hopen : auction.status.isTerminal = false)
    (hdate : auction.date.Representable) {endTime : TimeOfDay}
    (hend : auction.endTime? = some endTime) :
    auction.isOverdue now = true ↔ businessInstant auction.date endTime < now := by
  have hoverdue : auction.isOverdue now = true ↔ auction.date < now.businessDay ∨
      auction.date = now.businessDay ∧ businessInstant auction.date endTime < now := by
    simp [isOverdue_iff, hopen, hend]
  have hsecond := endTime.second_lt
  unfold secondsPerDay at hsecond
  obtain ⟨-, hepoch⟩ := businessInstant_cases hdate endTime
  rw [hoverdue, Instant.lt_iff, Date.lt_iff, Date.eq_iff, Instant.dayNumber_businessDay]
  omega

/-- Without an end, an auction is overdue from the first instant of the next day on. -/
theorem isOverdue_iff_of_endless (hopen : auction.status.isTerminal = false)
    (hdate : auction.date.Representable) (hend : auction.endTime? = none)
    (hlast : auction.date ≠ Date.last) :
    auction.isOverdue now = true ↔
      businessInstant (auction.date.addDays 1) .midnight ≤ now := by
  have hoverdue : auction.isOverdue now = true ↔ auction.date < now.businessDay := by
    simp [isOverdue_iff, hopen, hend]
  obtain ⟨hfrom, hto⟩ := hdate
  rw [Date.le_iff] at hfrom hto
  rw [ne_eq, Date.eq_iff] at hlast
  have hnumber : (auction.date.addDays 1).dayNumber = auction.date.dayNumber + 1 := rfl
  have hnext : (auction.date.addDays 1).Representable := by
    unfold Date.Representable
    rw [Date.le_iff, Date.le_iff]
    omega
  obtain ⟨hnano, hepoch⟩ := businessInstant_cases hnext .midnight
  have hmidnight : TimeOfDay.midnight.second = 0 ∧ TimeOfDay.midnight.nano = 0 := ⟨rfl, rfl⟩
  rw [Date.eq_iff] at hepoch
  rw [hoverdue, Instant.le_iff, Date.lt_iff, Instant.dayNumber_businessDay, hnano]
  omega

/-- What is overdue stays so until it has ended. -/
theorem isOverdue_mono {later : Instant} (hle : now ≤ later)
    (hoverdue : auction.isOverdue now = true) : auction.isOverdue later = true := by
  rw [isOverdue_iff] at hoverdue ⊢
  obtain ⟨hopen, hpassed⟩ := hoverdue
  have hday := Instant.businessDay_mono hle
  rw [Date.le_iff] at hday
  refine ⟨hopen, ?_⟩
  rcases hpassed with hbefore | ⟨endTime, hend, htoday, hended⟩
  · left
    rw [Date.lt_iff] at hbefore ⊢
    omega
  · by_cases hsame : auction.date = later.businessDay
    · exact .inr ⟨endTime, hend, hsame, Instant.lt_of_lt_of_le hended hle⟩
    · left
      rw [Date.eq_iff] at hsame htoday
      rw [Date.lt_iff]
      omega

/-- An auction has one deadline, whatever the instant: with an end it is overdue just after the
instant of its end, and without one just from the first instant of the next day on, unless there is
no such day. One that has ended is never overdue. Whoever finds an auction overdue may rely on it
later: a row of the same schedule that has not ended then is overdue as well. -/
theorem overdue_past_one_deadline (auction : Auction) :
    (auction.status.isTerminal = false → auction.date.Representable → ∀ now,
      (∀ endTime, auction.endTime? = some endTime →
        (auction.isOverdue now = true ↔ businessInstant auction.date endTime < now)) ∧
      (auction.endTime? = none → auction.date ≠ Date.last →
        (auction.isOverdue now = true ↔
          businessInstant (auction.date.addDays 1) .midnight ≤ now))) ∧
    (auction.status.isTerminal = true → ∀ now, auction.isOverdue now = false) ∧
    ∀ now later, now ≤ later → auction.isOverdue now = true →
      ∀ row, auction.SameSchedule row → row.status.isTerminal = false →
        row.isOverdue later = true := by
  refine ⟨fun hopen hdate now => ⟨fun endTime hend => ?_, fun hend hlast => ?_⟩,
    fun hended now => isOverdue_of_ended hended, fun now later hle hoverdue row hsame hopen => ?_⟩
  · exact isOverdue_iff_of_end hopen hdate hend
  · exact isOverdue_iff_of_endless hopen hdate hend hlast
  · exact hsame.isOverdue hopen (isOverdue_mono hle hoverdue)

end FishMarket.Auction
