import FishMarket.Calendar.Reading
import FishMarket.Proofs.Calendar.Civil
import FishMarket.Proofs.Text.Decimal

/-! # Dates and times read back

A time of day is read back from its written form as it was, every nanosecond included, and a leap
second as well if it is at the end of its minute. A date is read back if it is one of the supported
dates, and is no date otherwise; the same goes for an instant.
-/

namespace FishMarket.Calendar

open Text

namespace Reading

/-! ## Digits and blanks -/

theorem isBlank_of_isDigit {c : Char} (hdigit : isDigit c = true) : isBlank c = false := by
  unfold isDigit digitValue? at hdigit
  split at hdigit
  next hrange =>
    have hlo : 48 ≤ c.toNat := hrange.1
    have hhi : c.toNat ≤ 57 := hrange.2
    simp only [isBlank, blankRanges, List.any_cons, List.any_nil, Bool.or_false, Bool.or_eq_false_iff,
      Bool.and_eq_false_iff, decide_eq_false_iff_not]
    omega
  next => cases hdigit

theorem dropBlanks_cons {c : Char} (hblank : isBlank c = false) (rest : List Char) :
    dropBlanks (c :: rest) = c :: rest := by
  simp [dropBlanks, hblank]

theorem dropBlanks_digits {digits : List Char} (hdigits : ∀ c ∈ digits, isDigit c = true)
    (hne : digits ≠ []) (rest : List Char) : dropBlanks (digits ++ rest) = digits ++ rest := by
  obtain ⟨c, tail, rfl⟩ := List.exists_cons_of_ne_nil hne
  exact dropBlanks_cons (isBlank_of_isDigit (hdigits c List.mem_cons_self)) _

/-- Whether no digit follows. -/
def NoDigit (rest : List Char) : Prop :=
  rest.takeWhile isDigit = []

theorem noDigit_cons {c : Char} (hdigit : isDigit c = false) (rest : List Char) :
    NoDigit (c :: rest) := by
  simp [NoDigit, hdigit]

theorem takeWhile_digits {digits rest : List Char} (hdigits : ∀ c ∈ digits, isDigit c = true)
    (hrest : NoDigit rest) : (digits ++ rest).takeWhile isDigit = digits := by
  rw [List.takeWhile_append_of_pos hdigits, hrest, List.append_nil]

theorem dropWhile_digits {digits rest : List Char} (hdigits : ∀ c ∈ digits, isDigit c = true)
    (hrest : NoDigit rest) : (digits ++ rest).dropWhile isDigit = rest := by
  have hsplit := List.takeWhile_append_dropWhile (p := isDigit) (l := digits ++ rest)
  rw [takeWhile_digits hdigits hrest] at hsplit
  exact List.append_cancel_left hsplit

/-- A run of digits ends where there are no more, or when there are enough. -/
theorem takeWhile_take {most : Nat} {digits rest : List Char}
    (hdigits : ∀ c ∈ digits, isDigit c = true)
    (hend : digits.length = most ∨ digits.length ≤ most ∧ NoDigit rest) :
    ((digits ++ rest).take most).takeWhile isDigit = digits := by
  rcases hend with rfl | ⟨hle, hrest⟩
  · have hall := takeWhile_digits hdigits (rfl : NoDigit [])
    rw [List.append_nil] at hall
    rw [List.take_left, hall]
  · rw [List.take_append, List.take_of_length_le hle]
    refine takeWhile_digits hdigits ?_
    cases rest with
    | nil => rw [List.take_nil]; rfl
    | cons c rest =>
        cases most - digits.length with
        | zero => rfl
        | succ count =>
            have hdigit : isDigit c = false := by
              cases hc : isDigit c with
              | false => rfl
              | true => simp [NoDigit, hc] at hrest
            exact noDigit_cons hdigit _

theorem digitRun_digits {most : Nat} {digits rest : List Char}
    (hdigits : ∀ c ∈ digits, isDigit c = true) (hne : digits ≠ [])
    (hend : digits.length = most ∨ digits.length ≤ most ∧ NoDigit rest) :
    digitRun most (digits ++ rest) = some (valueOfDigits digits, rest) := by
  simp only [digitRun, takeWhile_take hdigits hend, List.drop_left]
  simp [hne]

theorem number_padded {value : Nat} (hvalue : value < 100) (rest : List Char) :
    number 2 (padded 2 value ++ rest) = some (value, rest) := by
  rw [number, dropBlanks_digits isDigit_of_mem_padded (padded_ne_nil 2 value),
    digitRun_digits isDigit_of_mem_padded (padded_ne_nil 2 value)
      (.inl (length_padded (by decide) hvalue)), valueOfDigits_padded]

theorem separator_cons {c : Char} (hblank : isBlank c = false) (rest : List Char) :
    separator c (c :: rest) = some rest := by
  simp [separator, dropBlanks_cons hblank, literal]

/-! ## Dates -/

theorem year_unsigned {digits : List Char} (hdigits : ∀ c ∈ digits, isDigit c = true)
    (hlength : digits.length = 4) (rest : List Char) :
    year (digits ++ rest) = some ((valueOfDigits digits : Int), rest) := by
  have hne : digits ≠ [] := by
    rintro rfl
    cases hlength
  have hrun : digitRun 4 (digits ++ rest) = some (valueOfDigits digits, rest) :=
    digitRun_digits hdigits hne (.inl hlength)
  unfold year
  rw [dropBlanks_digits hdigits hne]
  obtain ⟨c, tail, rfl⟩ := List.exists_cons_of_ne_nil hne
  have hfirst := hdigits c List.mem_cons_self
  split
  next heq =>
    obtain ⟨rfl, -⟩ := List.cons.inj heq
    exact absurd hfirst (by decide)
  next heq =>
    obtain ⟨rfl, -⟩ := List.cons.inj heq
    exact absurd hfirst (by decide)
  next => rw [hrun, Option.map_some]

/-- A year with a sign takes all digits that follow. -/
theorem digitRun_signed (value : Nat) {rest : List Char} (hrest : NoDigit rest) :
    digitRun (padded 4 value ++ rest).length (padded 4 value ++ rest) = some (value, rest) := by
  rw [digitRun_digits isDigit_of_mem_padded (padded_ne_nil 4 value) (.inr ⟨?_, hrest⟩),
    valueOfDigits_padded]
  rw [List.length_append]
  exact Nat.le_add_right _ _

theorem year_yearText (value : Int) {rest : List Char} (hrest : NoDigit rest) :
    year (Date.yearText value ++ rest) = some (value, rest) := by
  unfold Date.yearText
  split
  next hrange =>
    rw [year_unsigned isDigit_of_mem_padded (length_padded (by decide) (by omega)),
      valueOfDigits_padded, Int.toNat_of_nonneg hrange.1]
  next hrange =>
    split
    next hneg =>
      have hvalue : -(value.natAbs : Int) = value := by omega
      rw [List.cons_append, year, dropBlanks_cons (by decide)]
      change (digitRun (padded 4 value.natAbs ++ rest).length _).map _ = _
      rw [digitRun_signed _ hrest]
      exact congrArg (fun year => some (year, rest)) hvalue
    next hpos =>
      have hvalue : (value.natAbs : Int) = value := by omega
      rw [List.cons_append, year, dropBlanks_cons (by decide)]
      change (digitRun (padded 4 value.natAbs ++ rest).length _).map _ = _
      rw [digitRun_signed _ hrest]
      exact congrArg (fun year => some (year, rest)) hvalue

/-- A date is read back if it is one of the supported dates. -/
theorem datePart_text (date : Date) (rest : List Char) :
    datePart (date.text ++ rest) =
      if date.Representable then some (date, rest) else none := by
  have hmonth := date.month_bounds
  have hday := date.day_lt_hundred
  have hhyphen : isBlank '-' = false := by decide
  unfold datePart Date.text
  rw [List.append_assoc, List.append_assoc, List.cons_append, List.cons_append,
    year_yearText _ (noDigit_cons isDigit_minus _)]
  simp only [Option.bind_eq_bind, Option.bind_some, separator_cons hhyphen,
    number_padded (show date.month < 100 by omega), number_padded hday, date.ofCivil?_eq]
  split <;> rfl

/-! ## Times of day -/

theorem clockPart_text {hour minute : Nat} (hhour : hour < 100) (hminute : minute < 100)
    (rest : List Char) :
    clockPart (padded 2 hour ++ ':' :: (padded 2 minute ++ rest)) =
      some ((hour, minute), rest) := by
  have hcolon : isBlank ':' = false := by decide
  simp only [clockPart, number_padded hhour, number_padded hminute, separator_cons hcolon,
    Option.bind_eq_bind, Option.bind_some, Option.pure_def]

/-- Digits after a point count from the first place behind it. -/
theorem fractionPart_padded {width value : Nat} (hpos : 0 < width) (hwidth : width ≤ 9)
    (hvalue : value < 10 ^ width) {rest : List Char} (hrest : NoDigit rest) :
    fractionPart ('.' :: padded width value ++ rest) =
      some (value * 10 ^ (9 - width), rest) := by
  have hlength := length_padded hpos hvalue
  have hdigits : ((padded width value ++ rest).take 9).takeWhile isDigit = padded width value :=
    takeWhile_take isDigit_of_mem_padded (.inr ⟨Nat.le_trans (Nat.le_of_eq hlength) hwidth, hrest⟩)
  rw [List.cons_append, fractionPart]
  simp only [hdigits, dropWhile_digits isDigit_of_mem_padded hrest, valueOfDigits_padded, hlength]
  simp [padded_ne_nil]

/-- A fraction of a second is read back to the nanosecond. -/
theorem fractionPart_text {fraction : Nat} (hfraction : fraction < nanosPerSecond)
    {rest : List Char} (hrest : NoDigit rest) (hpoint : rest.head? ≠ some '.') :
    fractionPart (TimeOfDay.fractionText fraction ++ rest) = some (fraction, rest) := by
  unfold nanosPerSecond at hfraction
  unfold TimeOfDay.fractionText
  split
  next hzero =>
    rw [hzero, List.nil_append]
    unfold fractionPart
    split
    next => exact absurd rfl hpoint
    next => rfl
  next =>
    split
    next hmillis =>
      have hscaled : fraction / 1000000 * 10 ^ (9 - 3) = fraction :=
        Nat.div_mul_cancel (Nat.dvd_of_mod_eq_zero hmillis)
      rw [fractionPart_padded (by decide) (by decide) (by omega) hrest, hscaled]
    next =>
      split
      next hmicros =>
        have hscaled : fraction / 1000 * 10 ^ (9 - 6) = fraction :=
          Nat.div_mul_cancel (Nat.dvd_of_mod_eq_zero hmicros)
        rw [fractionPart_padded (by decide) (by decide) (by omega) hrest, hscaled]
      next =>
        have hscaled : fraction * 10 ^ (9 - 9) = fraction := Nat.mul_one fraction
        rw [fractionPart_padded (by decide) (by decide) (by omega) hrest, hscaled]

theorem secondPart_text {second fraction : Nat} (hsecond : second < 100)
    (hfraction : fraction < nanosPerSecond) {rest : List Char} (hrest : NoDigit rest)
    (hpoint : rest.head? ≠ some '.') :
    secondPart (':' :: (padded 2 second ++ (TimeOfDay.fractionText fraction ++ rest))) =
      some ((second, fraction), rest) := by
  have hcolon : isBlank ':' = false := by decide
  simp only [secondPart, separator_cons hcolon, number_padded hsecond,
    fractionPart_text hfraction hrest hpoint, Option.bind_eq_bind, Option.bind_some,
    Option.pure_def]

end Reading

open Reading

namespace TimeOfDay

/-- A time of day is its second and its nanosecond. -/
theorem eq_of_fields {time other : TimeOfDay} (hsecond : time.second = other.second)
    (hnano : time.nano = other.nano) : time = other := by
  cases time
  cases other
  cases hsecond
  cases hnano
  rfl

/-- The fields of a time of day are those of a clock. -/
theorem fields_lt (time : TimeOfDay) :
    time.hour < 24 ∧ time.minute < 60 ∧ time.secondOfMinute ≤ 60 ∧
      time.fraction < nanosPerSecond := by
  have hsecond := time.second_lt
  have hnano := time.nano_lt
  unfold secondsPerDay at hsecond
  unfold hour minute secondOfMinute fraction nanosPerSecond at *
  omega

/-- A time of day is made up of its fields, if a leap second is second 60. -/
theorem ofFields?_eq {time : TimeOfDay} (hminute : time.OnMinute) :
    ofFields? time.hour time.minute time.secondOfMinute time.fraction = some time := by
  have hnano := time.nano_lt
  rw [ofFields?, dif_pos time.fields_lt]
  refine congrArg some (eq_of_fields ?_ ?_)
  all_goals
    unfold OnMinute hour minute secondOfMinute fraction nanosPerSecond at *
    dsimp only
    split <;> omega

/-- What is left of a text whose hour, minute and second have been read. -/
theorem fields_text (time : TimeOfDay) {rest : List Char} (hrest : NoDigit rest)
    (hpoint : rest.head? ≠ some '.') :
    ∃ seconds, clockPart (time.text ++ rest) = some ((time.hour, time.minute), seconds) ∧
      (dropBlanks seconds).isEmpty = false ∧
      secondPart seconds = some ((time.secondOfMinute, time.fraction), rest) := by
  obtain ⟨hhour, hminute, hsecond, hfraction⟩ := time.fields_lt
  refine ⟨':' :: (padded 2 time.secondOfMinute ++ (fractionText time.fraction ++ rest)), ?_, ?_,
    secondPart_text (by omega) hfraction hrest hpoint⟩
  · rw [← clockPart_text (by omega) (by omega)]
    simp only [text, List.append_assoc, List.cons_append]
  · rw [dropBlanks_cons (by decide)]
    rfl

/-- A time of day is read back as it was, if a leap second is second 60. -/
theorem read?_text {time : TimeOfDay} (hminute : time.OnMinute) :
    read? time.text = some time := by
  obtain ⟨seconds, hclock, hmore, hseconds⟩ := time.fields_text (rfl : NoDigit []) (nofun)
  rw [List.append_nil] at hclock
  simp only [read?, hclock, hmore, hseconds, Bool.false_eq_true, if_false, Option.bind_eq_bind,
    Option.bind_some, ofFields?_eq hminute]
  rfl

/-- Any other leap second is written like the second after it, and is read as that. -/
theorem read?_text_of_not_onMinute {time : TimeOfDay} (hleap : ¬ time.OnMinute) :
    ∃ next : TimeOfDay, next.second = time.second + 1 ∧
      next.nano + nanosPerSecond = time.nano ∧ read? time.text = some next := by
  obtain ⟨hnano, hsecond⟩ := Classical.not_imp.mp hleap
  have hday := time.second_lt
  have hlimit := time.nano_lt
  unfold secondsPerDay at hday
  let next : TimeOfDay := {
    second := time.second + 1
    nano := time.nano - nanosPerSecond
    second_lt := by unfold secondsPerDay; omega
    nano_lt := by omega }
  have hless : next.nano < nanosPerSecond := by
    simp only [next]
    omega
  have htext : time.text = next.text := by
    have hhour : time.hour = next.hour := by simp only [next, hour]; omega
    have hminute : time.minute = next.minute := by simp only [next, minute]; omega
    have hshown : time.secondOfMinute = next.secondOfMinute := by
      simp only [next, secondOfMinute, nanosPerSecond] at hnano hlimit ⊢
      omega
    have hfraction : time.fraction = next.fraction := by
      simp only [next, fraction, nanosPerSecond] at hnano hlimit ⊢
      omega
    rw [text, text, hhour, hminute, hshown, hfraction]
  refine ⟨next, rfl, Nat.sub_add_cancel hnano, ?_⟩
  rw [htext]
  exact read?_text fun hge => absurd hge (Nat.not_le.mpr hless)

/-- A time of day is read back as it was if and only if it is not in a leap second within a
minute. -/
theorem read?_text_iff {time : TimeOfDay} : read? time.text = some time ↔ time.OnMinute := by
  refine ⟨fun hread => Decidable.byContradiction fun hleap => ?_, read?_text⟩
  obtain ⟨next, hsecond, -, hnext⟩ := read?_text_of_not_onMinute hleap
  obtain rfl := Option.some.inj (hread.symm.trans hnext)
  exact absurd hsecond (Nat.ne_of_lt (Nat.lt_succ_self _))

end TimeOfDay

/-- A date is read back if it is one of the supported dates. -/
theorem Date.read?_text (date : Date) :
    Date.read? date.text = if date.Representable then some date else none := by
  have hpart := datePart_text date []
  rw [List.append_nil] at hpart
  rw [Date.read?, hpart]
  split <;> simp [complete, dropBlanks]

namespace Instant

theorem addMinutes_zero (instant : Instant) : instant.addMinutes 0 = instant := by
  obtain ⟨⟨day⟩, time⟩ := instant
  have hsecond := time.second_lt
  unfold secondsPerDay at hsecond
  rw [addMinutes, mk.injEq]
  refine ⟨congrArg Date.mk ?_, TimeOfDay.eq_of_fields ?_ rfl⟩
  · dsimp only
    omega
  · dsimp only
    omega

/-- Whether an instant can be told from its written form. -/
structure Readable (instant : Instant) : Prop where
  date : instant.date.Representable
  time : instant.time.OnMinute

/-- An instant is read back if its date is one of the supported dates and a leap second is
second 60. -/
theorem read?_text {instant : Instant} (hminute : instant.time.OnMinute) :
    read? instant.text = if instant.date.Representable then some instant else none := by
  obtain ⟨seconds, hclock, -, hseconds⟩ :=
    instant.time.fields_text (noDigit_cons (by decide) [] : NoDigit ['Z']) (by decide)
  have htext : instant.text = instant.date.text ++ 'T' :: (instant.time.text ++ ['Z']) := by
    simp only [text, clockText, List.append_assoc, List.cons_append]
  have hoffset : offsetPart (dropBlanks ['Z']) = some (0, []) := by decide
  have hliteral (rest : List Char) : literal 'T' ('T' :: rest) = some rest := rfl
  rw [read?, htext, datePart_text]
  split
  next hrepresentable =>
    simp only [Option.bind_eq_bind, Option.bind_some, hliteral, hclock, hseconds, hoffset,
      TimeOfDay.ofFields?_eq hminute, Option.orElse_eq_orElse, Option.orElse_some, Int.neg_zero,
      addMinutes_zero, if_pos hrepresentable]
    rfl
  next => rfl

end Instant

end FishMarket.Calendar
