import FishMarket.Calendar.Date

/-! # Dates and their views

Year, month and day of a date are those of a day of the calendar, and they make up the same date
again. The supported dates are those of the supported years. Each day of the calendar is the one of
its date, and dates follow each other as their years, months and days do.
-/

namespace FishMarket.Calendar.Date

variable {date other : Date}

/-! ## Years and months that begin in March -/

theorem marchYear_le (date : Date) : daysBeforeMarchYear date.marchYear ≤ date.marchDay := by
  unfold marchYear
  dsimp only
  split
  next hlow =>
    unfold daysBeforeMarchYear at *
    omega
  next =>
    split
    next hhigh => exact hhigh
    next => omega

theorem lt_marchYear (date : Date) :
    date.marchDay < daysBeforeMarchYear (date.marchYear + 1) := by
  unfold marchYear
  dsimp only
  split
  next hlow => rwa [Int.sub_add_cancel]
  next =>
    split
    next hhigh =>
      unfold daysBeforeMarchYear at *
      omega
    next hlow => exact Int.not_le.mp hlow

/-- A year that begins in March has a leap day just when the calendar year does in which it ends. -/
theorem daysBeforeMarchYear_succ (year : Int) :
    daysBeforeMarchYear (year + 1) =
      daysBeforeMarchYear year + if isLeapYear (year + 1) then 366 else 365 := by
  unfold daysBeforeMarchYear isLeapYear
  split
  next hleap =>
    simp only [ne_eq, Bool.and_eq_true, Bool.or_eq_true, decide_eq_true_eq] at hleap
    omega
  next hleap =>
    simp only [ne_eq, Bool.and_eq_true, Bool.or_eq_true, decide_eq_true_eq] at hleap
    omega

theorem marchDay_eq (date : Date) :
    date.marchDay = daysBeforeMarchYear date.marchYear + date.dayOfMarchYear := by
  have hle := date.marchYear_le
  unfold dayOfMarchYear
  omega

theorem dayOfMarchYear_lt (date : Date) :
    date.dayOfMarchYear < if isLeapYear (date.marchYear + 1) then 366 else 365 := by
  have hlt := date.lt_marchYear
  rw [daysBeforeMarchYear_succ, marchDay_eq] at hlt
  split at hlt
  next hleap => rw [if_pos hleap]; omega
  next hleap => rw [if_neg hleap]; omega

theorem marchMonth_bounds (date : Date) :
    date.marchMonth ≤ 11 ∧ daysBeforeMarchMonth date.marchMonth ≤ date.dayOfMarchYear ∧
      date.dayOfMarchYear < daysBeforeMarchMonth (date.marchMonth + 1) := by
  have hlt : date.dayOfMarchYear < 366 := by
    have hlt := date.dayOfMarchYear_lt
    split at hlt <;> omega
  unfold marchMonth daysBeforeMarchMonth
  omega

theorem daysBeforeMarchYear_mono {year later : Int} (hle : year ≤ later) :
    daysBeforeMarchYear year ≤ daysBeforeMarchYear later := by
  unfold daysBeforeMarchYear
  omega

/-! ## Civil dates -/

/-- The months from March on belong to the calendar year in which the year from March begins, and
January and February to the next. -/
theorem month_cases (date : Date) :
    (3 ≤ date.month ∧ date.month ≤ 12 ∧ date.year = date.marchYear ∧
      date.marchMonth = date.month - 3) ∨
    (1 ≤ date.month ∧ date.month ≤ 2 ∧ date.year = date.marchYear + 1 ∧
      date.marchMonth = date.month + 9) := by
  obtain ⟨hmonth, -, -⟩ := date.marchMonth_bounds
  unfold month year
  split
  next => exact .inl (by omega)
  next => exact .inr (by omega)

/-- A date is made up of its year, month and day. -/
theorem ofCivil_eq (date : Date) : ofCivil date.year date.month date.day = date := by
  obtain ⟨-, hfirst, -⟩ := date.marchMonth_bounds
  have hday := date.marchDay_eq
  unfold marchDay at hday
  refine congrArg Date.mk ?_
  rcases date.month_cases with ⟨hlo, hhi, hyear, hmonth⟩ | ⟨hlo, hhi, hyear, hmonth⟩
  · rw [if_neg (by omega), if_neg (by omega), ← hmonth, hyear, day]
    omega
  · rw [if_pos (by omega), if_pos (by omega), ← hmonth, hyear, day, Int.add_sub_cancel]
    omega

theorem month_bounds (date : Date) : 1 ≤ date.month ∧ date.month ≤ 12 := by
  rcases date.month_cases with ⟨hlo, hhi, -⟩ | ⟨hlo, hhi, -⟩ <;> omega

theorem day_pos (date : Date) : 1 ≤ date.day :=
  Nat.le_add_left 1 _

theorem day_le (date : Date) : date.day ≤ daysInMonth date.year date.month := by
  obtain ⟨-, hfirst, hlast⟩ := date.marchMonth_bounds
  have hyearDay := date.dayOfMarchYear_lt
  unfold daysBeforeMarchMonth at hfirst hlast
  unfold day daysBeforeMarchMonth daysInMonth
  rcases date.month_cases with ⟨hlo, hhi, hyear, hmonth⟩ | ⟨hlo, hhi, hyear, hmonth⟩
  · rw [if_neg (by omega)]
    split <;> omega
  · rw [hyear]
    split
    next =>
      split at hyearDay
      next hleap => rw [if_pos hleap]; omega
      next hleap => rw [if_neg hleap]; omega
    next => rw [if_neg (by omega)]; omega

theorem day_lt_hundred (date : Date) : date.day < 100 := by
  have hle := date.day_le
  unfold daysInMonth at hle
  split at hle
  next => split at hle <;> omega
  next => split at hle <;> omega

/-! ## Supported dates -/

theorem representable_iff (date : Date) :
    date.Representable ↔ firstYear ≤ date.year ∧ date.year ≤ lastYear := by
  have hday := date.marchDay_eq
  have hbefore (year : Int) (hyear : date.marchYear < year) :
      date.marchDay < daysBeforeMarchYear year :=
    Int.lt_of_lt_of_le date.lt_marchYear (daysBeforeMarchYear_mono hyear)
  have hupTo (year : Int) (hyear : date.marchYear ≤ year) :
      date.marchDay ≤ daysBeforeMarchYear year + date.dayOfMarchYear := by
    have hmono := daysBeforeMarchYear_mono hyear
    omega
  have hsince (year : Int) (hyear : year ≤ date.marchYear) :
      daysBeforeMarchYear year + date.dayOfMarchYear ≤ date.marchDay := by
    have hmono := daysBeforeMarchYear_mono hyear
    omega
  have hfirst : first.marchDay = daysBeforeMarchYear (-262144) + 306 := by decide
  have hlast : last.marchDay = daysBeforeMarchYear 262142 + 305 := by decide
  have hrange : date.Representable ↔
      first.marchDay ≤ date.marchDay ∧ date.marchDay ≤ last.marchDay := by
    change first.dayNumber ≤ date.dayNumber ∧ date.dayNumber ≤ last.dayNumber ↔ _
    unfold marchDay
    omega
  obtain ⟨-, hmonthFirst, hmonthLast⟩ := date.marchMonth_bounds
  unfold daysBeforeMarchMonth at hmonthFirst hmonthLast
  rw [hrange, hfirst, hlast]
  unfold firstYear lastYear
  -- January and February come last in a year that begins in March
  rcases date.month_cases with ⟨hlo, hhi, hyear, hmonth⟩ | ⟨hlo, hhi, hyear, hmonth⟩
  · have hnext : daysBeforeMarchYear (-262143) = daysBeforeMarchYear (-262144) + 365 := by decide
    have hend : daysBeforeMarchYear 262143 = daysBeforeMarchYear 262142 + 365 := by decide
    have h₁ := hupTo (-262144)
    have h₂ := hsince (-262143)
    have h₃ := hupTo 262142
    have h₄ := hsince 262143
    omega
  · have h₁ := hbefore (-262144)
    have h₂ := hsince (-262144)
    have h₃ := hbefore 262142
    have h₄ := hsince 262142
    omega

theorem ofCivil?_eq (date : Date) :
    ofCivil? date.year date.month date.day =
      if date.Representable then some date else none := by
  have hmonth := date.month_bounds
  have hbounds : (firstYear ≤ date.year ∧ date.year ≤ lastYear ∧ 1 ≤ date.month ∧
      date.month ≤ 12 ∧ 1 ≤ date.day ∧ date.day ≤ daysInMonth date.year date.month) ↔
      date.Representable := by
    rw [representable_iff]
    exact ⟨fun h => ⟨h.1, h.2.1⟩,
      fun h => ⟨h.1, h.2, hmonth.1, hmonth.2, date.day_pos, date.day_le⟩⟩
  rw [ofCivil?, ofCivil_eq]
  simp only [hbounds]

/-! ## Days of the calendar -/

theorem marchYear_eq {year : Int} (hle : daysBeforeMarchYear year ≤ date.marchDay)
    (hlt : date.marchDay < daysBeforeMarchYear (year + 1)) : date.marchYear = year := by
  have hfrom := date.marchYear_le
  have hto := date.lt_marchYear
  rcases Int.lt_trichotomy date.marchYear year with hbefore | heq | hafter
  · have hmono := daysBeforeMarchYear_mono (show date.marchYear + 1 ≤ year from hbefore)
    omega
  · exact heq
  · have hmono := daysBeforeMarchYear_mono (show year + 1 ≤ date.marchYear from hafter)
    omega

/-- A day of a month within a year that begins in March is found there again. -/
theorem march_eq {year : Int} {month day : Nat}
    (hday : date.marchDay = daysBeforeMarchYear year + daysBeforeMarchMonth month + day)
    (hmonth : daysBeforeMarchMonth month + day < daysBeforeMarchMonth (month + 1))
    (hyear : daysBeforeMarchMonth month + day < if isLeapYear (year + 1) then 366 else 365) :
    date.marchYear = year ∧ date.marchMonth = month ∧ date.day = day + 1 := by
  have hsame : date.marchYear = year := by
    refine marchYear_eq (by omega) ?_
    rw [daysBeforeMarchYear_succ]
    split at hyear
    next hleap => rw [if_pos hleap]; omega
    next hleap => rw [if_neg hleap]; omega
  have hdays : date.dayOfMarchYear = daysBeforeMarchMonth month + day := by
    rw [dayOfMarchYear, hsame]
    omega
  have hmonths : date.marchMonth = month := by
    unfold marchMonth
    unfold daysBeforeMarchMonth at *
    omega
  refine ⟨hsame, hmonths, ?_⟩
  rw [Date.day, hdays, hmonths]
  omega

/-- From March on, the days before a month and those of the month make up those before the next. -/
theorem daysBeforeMarchMonth_succ (year : Int) {month : Nat} (hlo : 3 ≤ month) (hhi : month ≤ 12) :
    daysBeforeMarchMonth (month - 3 + 1) =
      daysBeforeMarchMonth (month - 3) + daysInMonth year month := by
  have hall : ∀ month ≤ 12, 3 ≤ month → daysBeforeMarchMonth (month - 3 + 1) =
      daysBeforeMarchMonth (month - 3) +
        if month = 4 ∨ month = 6 ∨ month = 9 ∨ month = 11 then 30 else 31 := by decide
  rw [daysInMonth, if_neg (by omega)]
  exact hall month hhi hlo

/-- The year, month and day of a date that is made up of them. -/
theorem civil_ofCivil {year : Int} {month day : Nat} (hlo : 1 ≤ month) (hhi : month ≤ 12)
    (hfirst : 1 ≤ day) (hlast : day ≤ daysInMonth year month) :
    (ofCivil year month day).year = year ∧ (ofCivil year month day).month = month ∧
      (ofCivil year month day).day = day := by
  obtain ⟨day, rfl⟩ := Nat.exists_eq_add_of_le' hfirst
  rcases Nat.lt_or_ge month 3 with hearly | hlate
  · have hmarch : (ofCivil year month (day + 1)).marchDay = daysBeforeMarchYear (year - 1) +
        daysBeforeMarchMonth (month + 9) + day := by
      unfold marchDay ofCivil
      rw [if_pos hearly, if_pos hearly]
      dsimp only
      omega
    have hlength : daysBeforeMarchMonth (month + 9) + day < daysBeforeMarchMonth (month + 10) ∧
        daysBeforeMarchMonth (month + 9) + day < if isLeapYear year then 366 else 365 := by
      obtain rfl | rfl : month = 1 ∨ month = 2 := by omega
      · change day + 1 ≤ 31 at hlast
        change 306 + day < 337 ∧ 306 + day < _
        split <;> omega
      · change day + 1 ≤ if isLeapYear year then 29 else 28 at hlast
        change 337 + day < 367 ∧ 337 + day < _
        split at hlast
        next hleap => rw [if_pos hleap]; omega
        next hleap => rw [if_neg hleap]; omega
    obtain ⟨hyears, hmonths, hdays⟩ := march_eq hmarch hlength.1
      (by rw [Int.sub_add_cancel]; exact hlength.2)
    refine ⟨?_, ?_, hdays⟩
    · rw [Date.year, if_neg (by omega), hyears, Int.sub_add_cancel]
    · rw [Date.month, if_neg (by omega), hmonths, Nat.add_sub_cancel]
  · have hmarch : (ofCivil year month (day + 1)).marchDay = daysBeforeMarchYear year +
        daysBeforeMarchMonth (month - 3) + day := by
      unfold marchDay ofCivil
      rw [if_neg (Nat.not_lt.mpr hlate), if_neg (Nat.not_lt.mpr hlate)]
      dsimp only
      omega
    have hlength := daysBeforeMarchMonth_succ year hlate hhi
    have hend : daysBeforeMarchMonth (month - 3 + 1) ≤ 306 := by
      unfold daysBeforeMarchMonth
      omega
    obtain ⟨hyears, hmonths, hdays⟩ := march_eq hmarch (by omega) (by split <;> omega)
    refine ⟨?_, ?_, hdays⟩
    · rw [Date.year, if_pos (by omega), hyears]
    · rw [Date.month, if_pos (by omega), hmonths]
      omega

/-- The days of the calendar in the supported years are the supported dates. -/
theorem ofCivil?_eq_some_iff {year : Int} {month day : Nat} :
    ofCivil? year month day = some date ↔
      date.Representable ∧ date.year = year ∧ date.month = month ∧ date.day = day := by
  refine ⟨fun hmade => ?_, ?_⟩
  · unfold ofCivil? at hmade
    split at hmade
    next hvalid =>
      obtain ⟨hlo, hhi, hmonthLo, hmonthHi, hfirst, hlast⟩ := hvalid
      obtain rfl := Option.some.inj hmade
      obtain ⟨hyear, hmonth, hday⟩ := civil_ofCivil hmonthLo hmonthHi hfirst hlast
      exact ⟨(representable_iff _).mpr (hyear.symm ▸ ⟨hlo, hhi⟩), hyear, hmonth, hday⟩
    next => cases hmade
  · rintro ⟨hdate, rfl, rfl, rfl⟩
    rw [ofCivil?_eq, if_pos hdate]

/-! ## Order -/

/-- Months from January of year 0 on, counted in years of the calendar or in those from March. -/
theorem monthNumber_eq (date : Date) :
    12 * date.year + date.month = 12 * date.marchYear + date.marchMonth + 3 := by
  obtain ⟨hmonth, -, -⟩ := date.marchMonth_bounds
  rcases date.month_cases with ⟨hlo, hhi, hyear, hmarch⟩ | ⟨hlo, hhi, hyear, hmarch⟩
  · rw [hyear]
    omega
  · rw [hyear]
    omega

theorem marchDay_lt_of_marchYear_lt (hlt : date.marchYear < other.marchYear) :
    date.marchDay < other.marchDay :=
  calc date.marchDay < daysBeforeMarchYear (date.marchYear + 1) := date.lt_marchYear
    _ ≤ daysBeforeMarchYear other.marchYear := daysBeforeMarchYear_mono hlt
    _ ≤ other.marchDay := other.marchYear_le

theorem marchDay_lt_iff : date.marchDay < other.marchDay ↔
    date.marchYear < other.marchYear ∨
      date.marchYear = other.marchYear ∧ date.dayOfMarchYear < other.dayOfMarchYear := by
  have hdate := date.marchDay_eq
  have hother := other.marchDay_eq
  rcases Int.lt_trichotomy date.marchYear other.marchYear with hlt | heq | hgt
  · exact iff_of_true (marchDay_lt_of_marchYear_lt hlt) (.inl hlt)
  · rw [hdate, hother, heq]
    omega
  · have hback := marchDay_lt_of_marchYear_lt hgt
    omega

theorem dayOfMarchYear_lt_iff : date.dayOfMarchYear < other.dayOfMarchYear ↔
    date.marchMonth < other.marchMonth ∨
      date.marchMonth = other.marchMonth ∧ date.day < other.day := by
  obtain ⟨-, hfirst, hlast⟩ := date.marchMonth_bounds
  obtain ⟨-, hotherFirst, hotherLast⟩ := other.marchMonth_bounds
  unfold day
  unfold daysBeforeMarchMonth at *
  rcases Nat.lt_trichotomy date.marchMonth other.marchMonth with hlt | heq | hgt
  · omega
  · rw [heq] at hfirst hlast
    omega
  · omega

/-- Dates are ordered by year, then by month, then by day. -/
theorem lt_iff_civil : date < other ↔ date.year < other.year ∨ date.year = other.year ∧
    (date.month < other.month ∨ date.month = other.month ∧ date.day < other.day) := by
  have hdays : date < other ↔ date.marchDay < other.marchDay := by
    change date.dayNumber < other.dayNumber ↔ _
    unfold marchDay
    omega
  have hmonths := date.monthNumber_eq
  have hotherMonths := other.monthNumber_eq
  obtain ⟨hmonth, -, -⟩ := date.marchMonth_bounds
  obtain ⟨hotherMonth, -, -⟩ := other.marchMonth_bounds
  obtain ⟨hlo, hhi⟩ := date.month_bounds
  obtain ⟨hotherLo, hotherHi⟩ := other.month_bounds
  rw [hdays, marchDay_lt_iff, dayOfMarchYear_lt_iff]
  omega

theorem civil_injective (hyear : date.year = other.year) (hmonth : date.month = other.month)
    (hday : date.day = other.day) : date = other := by
  rw [← ofCivil_eq date, hyear, hmonth, hday, ofCivil_eq]

end FishMarket.Calendar.Date
