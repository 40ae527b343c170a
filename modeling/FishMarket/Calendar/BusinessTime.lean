import FishMarket.Calendar.Instant

/-! # Business time

The market keeps the clock of UTC+9 all year round. Its day begins at midnight of that clock, which
is 15:00 of the day before in UTC.
-/

namespace FishMarket.Calendar

/-- Minutes by which the clock of the market is ahead of UTC. -/
def businessOffsetMinutes : Int := 540

/-- What the clock of the market shows at an instant. -/
def Instant.toBusinessTime (now : Instant) : Instant :=
  now.addMinutes businessOffsetMinutes

/-- The business day of an instant. -/
def Instant.businessDay (now : Instant) : Date :=
  now.toBusinessTime.date

/-- The written form of what the clock of the market shows, with its offset. -/
def Instant.businessText (now : Instant) : List Char :=
  now.toBusinessTime.clockText ++ "+09:00".toList

/-- The instant at which the clock of the market shows the given day and time. On the first
supported day that instant may lie before the supported dates; the reading is then taken as if
the clock were that of UTC. -/
def businessInstant (day : Date) (time : TimeOfDay) : Instant :=
  let instant := Instant.addMinutes ⟨day, time⟩ (-businessOffsetMinutes)
  if instant.date.Representable then instant else ⟨day, time⟩

end FishMarket.Calendar
