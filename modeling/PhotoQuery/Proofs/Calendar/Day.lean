import Mathlib.Tactic.IntervalCases
import PhotoQuery.Timestamp

/-!
# Calendar — days and their numbers

The Gregorian calendar, extended to all years: `CalendarDay.IsDate` says which days it has, and
`CalendarDay.number` counts them from the first of January 1970.  The count is by whole years, then
whole months, then days; the next day has the next number (`CalendarDay.number_next`), whatever
month or year ends in between.

The count respects the order of the calendar (`CalendarDay.IsDate.lexLe_iff`), so no two days have
one number, and `CalendarDay.ofDayNumber` finds the day of every number
(`CalendarDay.number_ofDayNumber`).  It looks for a year that starts in March.  There leap days come
last, so the length of a month is the same in all years, but for the last month.
-/

namespace PhotoQuery.CalendarDay

/-! ### The calendar -/

/-- Every fourth year is a leap year, but of the full centuries only every fourth. -/
abbrev IsLeap (year : Int) : Prop := year % 4 = 0 ∧ (year % 100 = 0 → year % 400 = 0)

/-- The number of days of a year. -/
def yearLength (year : Int) : Int := if IsLeap year then 366 else 365

/-- The number of days of a month. -/
def monthLength (year month : Int) : Int :=
  if month = 2 then if IsLeap year then 29 else 28
  else if month = 4 ∨ month = 6 ∨ month = 9 ∨ month = 11 then 30
  else 31

/-- The calendar has the day. -/
structure IsDate (d : CalendarDay) : Prop where
  one_le_month : 1 ≤ d.month
  month_le : d.month ≤ 12
  one_le_day : 1 ≤ d.day
  day_le : d.day ≤ monthLength d.year d.month

/-- The number of days from the first of January 1970 to that of the year. -/
def yearStart (year : Int) : Int :=
  365 * (year - 1970) + (year - 1969) / 4 - (year - 1901) / 100 + (year - 1601) / 400

/-- The number of days in the first months of a year. -/
def monthStart (year : Int) : Nat → Int
  | 0 => 0
  | months + 1 => monthStart year months + monthLength year (months + 1)

/-- The number of days from the first of January 1970 to the day. -/
def number (d : CalendarDay) : Int :=
  yearStart d.year + monthStart d.year (d.month - 1).toNat + (d.day - 1)

/-- The first day is not later than the second: by the year, then the month, then the day. -/
def LexLe (a b : CalendarDay) : Prop :=
  a.year < b.year ∨ a.year = b.year ∧ (a.month < b.month ∨ a.month = b.month ∧ a.day ≤ b.day)

/-- The count starts on the first of January 1970. -/
theorem number_epoch : number ⟨1970, 1, 1⟩ = 0 := by decide

/-- A year starts where the one before it ends. -/
theorem yearStart_succ (year : Int) : yearStart (year + 1) = yearStart year + yearLength year := by
  unfold yearStart yearLength
  split <;> omega

theorem yearStart_mono {a b : Int} (h : a ≤ b) : yearStart a ≤ yearStart b := by
  unfold yearStart
  omega

theorem monthLength_pos (year month : Int) : 0 < monthLength year month := by
  unfold monthLength
  repeat' split
  all_goals decide

theorem monthLength_le (year month : Int) : monthLength year month ≤ 31 := by
  unfold monthLength
  repeat' split
  all_goals decide

/-- Later months start later. -/
theorem monthStart_mono (year : Int) {m n : Nat} (h : m ≤ n) :
    monthStart year m ≤ monthStart year n := by
  induction h with
  | refl => exact Int.le_refl _
  | @step n _ ih =>
    have := monthLength_pos year (n + 1)
    rw [monthStart]
    omega

/-- Twelve months make a year. -/
theorem monthStart_twelve (year : Int) : monthStart year 12 = yearLength year := by
  by_cases leap : IsLeap year
  · simp only [monthStart, monthLength, yearLength, if_pos leap]
    rfl
  · simp only [monthStart, monthLength, yearLength, if_neg leap]
    rfl

namespace IsDate

variable {a b d : CalendarDay}

/-- The months before that of a date, and that one. -/
theorem monthStart_succ (h : d.IsDate) :
    monthStart d.year d.month.toNat =
      monthStart d.year (d.month - 1).toNat + monthLength d.year d.month := by
  obtain ⟨months, hm⟩ := Int.eq_ofNat_of_zero_le (Int.sub_nonneg_of_le h.one_le_month)
  have succ : d.month = months + 1 := by omega
  rw [hm, Int.toNat_natCast, succ, Int.toNat_natCast_add_one, monthStart]

/-- A date lies in its month. -/
theorem number_lt_month (h : d.IsDate) :
    number d < yearStart d.year + monthStart d.year d.month.toNat := by
  have := h.day_le
  rw [h.monthStart_succ, number]
  omega

/-- A date lies in its year. -/
theorem number_lt_year (h : d.IsDate) : number d < yearStart (d.year + 1) := by
  have months : d.month.toNat ≤ 12 := Int.toNat_le.mpr h.month_le
  have le := monthStart_mono d.year months
  have := h.number_lt_month
  rw [yearStart_succ, ← monthStart_twelve]
  omega

/-- A date is not before its year. -/
theorem yearStart_le_number (h : d.IsDate) : yearStart d.year ≤ number d := by
  have le := monthStart_mono d.year (Nat.zero_le (d.month - 1).toNat)
  have := h.one_le_day
  rw [monthStart] at le
  rw [number]
  omega

/-- Dates of an earlier year have lesser numbers. -/
theorem number_lt_of_year_lt (ha : a.IsDate) (hb : b.IsDate) (h : a.year < b.year) :
    number a < number b :=
  calc number a < yearStart (a.year + 1) := ha.number_lt_year
    _ ≤ yearStart b.year := yearStart_mono h
    _ ≤ number b := hb.yearStart_le_number

/-- Dates of an earlier month of one year have lesser numbers. -/
theorem number_lt_of_month_lt (ha : a.IsDate) (hb : b.IsDate) (same : a.year = b.year)
    (h : a.month < b.month) : number a < number b := by
  have le := monthStart_mono b.year (show a.month.toNat ≤ (b.month - 1).toNat by omega)
  have lt := ha.number_lt_month
  have := hb.one_le_day
  rw [same] at lt
  rw [number.eq_def b]
  omega

/-- **The count respects the calendar.** -/
theorem lexLe_iff (ha : a.IsDate) (hb : b.IsDate) : a.LexLe b ↔ number a ≤ number b := by
  constructor
  · rintro (year | ⟨year, month | ⟨month, day⟩⟩)
    · exact Int.le_of_lt (ha.number_lt_of_year_lt hb year)
    · exact Int.le_of_lt (ha.number_lt_of_month_lt hb year month)
    · rw [number, number, year, month]
      omega
  · intro le
    rcases Int.lt_trichotomy a.year b.year with year | year | year
    · exact .inl year
    · rcases Int.lt_trichotomy a.month b.month with month | month | month
      · exact .inr ⟨year, .inl month⟩
      · rw [number, number, year, month] at le
        exact .inr ⟨year, .inr ⟨month, by omega⟩⟩
      · exact absurd (hb.number_lt_of_month_lt ha year.symm month) (Int.not_lt.mpr le)
    · exact absurd (hb.number_lt_of_year_lt ha year) (Int.not_lt.mpr le)

/-- No two dates have one number. -/
theorem eq_of_number_eq (ha : a.IsDate) (hb : b.IsDate) (h : number a = number b) : a = b := by
  have le := (ha.lexLe_iff hb).mpr (Int.le_of_eq h)
  have ge := (hb.lexLe_iff ha).mpr (Int.le_of_eq h.symm)
  obtain ⟨y, m, d⟩ := a
  obtain ⟨y', m', d'⟩ := b
  simp only [LexLe] at le ge
  obtain rfl : y = y' := by omega
  obtain rfl : m = m' := by omega
  obtain rfl : d = d' := by omega
  rfl

end IsDate

/-! ### The next day -/

/-- The day after a day: in its month, or the first of the next month. -/
def next (d : CalendarDay) : CalendarDay :=
  if d.day < monthLength d.year d.month then { d with day := d.day + 1 }
  else if d.month < 12 then ⟨d.year, d.month + 1, 1⟩
  else ⟨d.year + 1, 1, 1⟩

/-- The day after a date is a date. -/
theorem IsDate.next {d : CalendarDay} (h : d.IsDate) : d.next.IsDate := by
  obtain ⟨hm, hm', hd, hd'⟩ := h
  unfold CalendarDay.next
  split
  next inside => exact ⟨hm, hm', by dsimp only; omega, inside⟩
  next =>
    split
    next before => exact ⟨by dsimp only; omega, before, Int.le_refl 1, monthLength_pos _ _⟩
    next => exact ⟨Int.le_refl 1, by dsimp only; decide, Int.le_refl 1, monthLength_pos _ _⟩

/-- **The next day has the next number.** -/
theorem number_next {d : CalendarDay} (h : d.IsDate) : number d.next = number d + 1 := by
  have months := h.monthStart_succ
  obtain ⟨hm, hm', hd, hd'⟩ := h
  unfold next
  -- the day is not the last of its month, or the month is not the last of its year, or both are
  split
  next inside =>
    simp only [number]
    omega
  next last =>
    have whole : d.day = monthLength d.year d.month := by omega
    split
    next before =>
      simp only [number, Int.add_sub_cancel, months, whole]
      omega
    next december =>
      have twelve : d.month = 12 := by omega
      rw [twelve] at months
      have year : monthStart d.year 12 = _ := months
      have first : monthStart (d.year + 1) (1 - 1 : Int).toNat = 0 := rfl
      simp only [number, yearStart_succ, ← monthStart_twelve, year, twelve, whole, first]
      omega

/-! ### Years from March -/

/-- The number of days from the first of January 1970 to the first of March of the year. -/
def marchStart (year : Int) : Int := 365 * year + year / 4 - year / 100 + year / 400 - 719468

/-- The number of days in the first months of a year from March, the last month apart. -/
def monthsFromMarch (months : Int) : Int := (153 * months + 2) / 5

/-- The day that comes the given number of days after the first of March of the year. -/
def ofMarch (year dayOfYear : Int) : CalendarDay :=
  let month := (5 * dayOfYear + 2) / 153
  let day := dayOfYear - monthsFromMarch month + 1
  if month < 10 then ⟨year, month + 3, day⟩ else ⟨year + 1, month - 9, day⟩

/-- Four periods, the last of which may be one day longer: the period `q` that the day `x` lies
in, and what is left of the day in it. -/
structure Quarter (period x q : Int) : Prop where
  nonneg : 0 ≤ q
  le : q ≤ 3
  rest_nonneg : 0 ≤ x - q * period
  rest_le : x - q * period < period ∨ q = 3 ∧ x = 4 * period

/-- Rounding down finds the period, once the odd last day is kept in the last one. -/
theorem quarter_min {period x : Int} (hp : 0 < period) (hx : 0 ≤ x) (hx' : x ≤ 4 * period) :
    Quarter period x (min 3 (x / period)) := by
  have split := Int.emod_add_mul_ediv x period
  have low := Int.emod_nonneg x (Int.ne_of_gt hp)
  have high := Int.emod_lt_of_pos x hp
  have div := Int.ediv_nonneg hx (Int.le_of_lt hp)
  rcases Int.lt_or_eq_of_le hx' with lt | rfl
  · have le : x / period ≤ 3 := Int.le_of_lt_add_one (Int.ediv_lt_of_lt_mul hp lt)
    have rest : x - x / period * period = x % period := by rw [Int.mul_comm]; omega
    rw [Int.min_eq_right le]
    exact ⟨div, le, by rwa [rest], .inl (by rwa [rest])⟩
  · rw [Int.mul_ediv_cancel _ (Int.ne_of_gt hp), show min (3 : Int) 4 = 3 from rfl]
    exact ⟨by decide, by decide, by omega, .inr ⟨rfl, rfl⟩⟩

/-- The days of whole periods: four centuries, centuries, four years, years. -/
theorem marchStart_eq {era century cycle year : Int} (hc : 0 ≤ century) (hc' : century ≤ 3)
    (hk : 0 ≤ cycle) (hk' : cycle ≤ 24) (hy : 0 ≤ year) (hy' : year ≤ 3) :
    marchStart (era * 400 + century * 100 + cycle * 4 + year) =
      era * 146097 + century * 36524 + cycle * 1461 + year * 365 - 719468 := by
  unfold marchStart
  omega

/-- Every number is that of a day in a year from March, which has a last day more if a leap day ends
it. -/
theorem exists_ofMarch (n : Int) : ∃ year day, ofDayNumber n = ofMarch year day ∧
    marchStart year + day = n ∧ 0 ≤ day ∧ (day < 365 ∨ day = 365 ∧ IsLeap (year + 1)) := by
  refine ⟨_, _, rfl, ?_⟩
  -- one period after the other is divided out, and only its quotient and remainder are kept
  have hera : 0 ≤ (n + 719468) % 146097 ∧ (n + 719468) % 146097 ≤ 4 * 36524 ∧
      (n + 719468) % 146097 + 146097 * ((n + 719468) / 146097) = n + 719468 := by omega
  generalize (n + 719468) / 146097 = era, (n + 719468) % 146097 = dayOfEra at *
  obtain ⟨he, he', hn⟩ := hera
  obtain ⟨hc, hc', hcr, hcr'⟩ := quarter_min (by decide : (0 : Int) < 36524) he he'
  generalize min 3 (dayOfEra / 36524) = century at *
  generalize hdc : dayOfEra - century * 36524 = dayOfCentury at *
  have hcycle : 0 ≤ dayOfCentury / 1461 ∧ dayOfCentury / 1461 ≤ 24 ∧
      0 ≤ dayOfCentury % 1461 ∧ dayOfCentury % 1461 ≤ 4 * 365 ∧
      dayOfCentury % 1461 + 1461 * (dayOfCentury / 1461) = dayOfCentury := by omega
  generalize dayOfCentury / 1461 = cycle, dayOfCentury % 1461 = dayOfCycle at *
  obtain ⟨hk, hk', hd, hd', hdk⟩ := hcycle
  obtain ⟨hy, hy', hyr, hyr'⟩ := quarter_min (by decide : (0 : Int) < 365) hd hd'
  generalize min 3 (dayOfCycle / 365) = year at *
  rw [marchStart_eq hc hc' hk hk' hy hy']
  refine ⟨by omega, hyr, ?_⟩
  omega

/-- From March to December, only the leap day in front depends on the year. -/
theorem number_spring {year month day : Int} (h : 0 ≤ month) (h' : month < 10) :
    number ⟨year, month + 3, day⟩ = marchStart year + monthsFromMarch month + (day - 1) := by
  have winter : monthStart year 2 = 31 + if IsLeap year then 29 else 28 := rfl
  have march : yearStart year + monthStart year 2 = marchStart year := by
    unfold yearStart marchStart
    rw [winter]
    split <;> omega
  have months : monthStart year (month + 2).toNat = monthStart year 2 + monthsFromMarch month := by
    interval_cases month <;> simp [monthStart, monthLength, monthsFromMarch, Int.add_assoc]
  have toNat : month + 3 - 1 = month + 2 := by omega
  simp only [number, ← march, toNat, months]
  omega

/-- January and February belong to the year that started in March before. -/
theorem number_winter {year month day : Int} (h : 10 ≤ month) (h' : month < 12) :
    number ⟨year + 1, month - 9, day⟩ = marchStart year + monthsFromMarch month + (day - 1) := by
  have january : yearStart (year + 1) = marchStart year + 306 := by
    unfold yearStart marchStart
    omega
  have months : monthStart (year + 1) (month - 9 - 1).toNat = monthsFromMarch month - 306 := by
    interval_cases month <;> simp [monthStart, monthLength, monthsFromMarch]
  simp only [number, january, months]
  omega

/-- From March on, the lengths of the months follow one formula. -/
theorem monthLength_spring (year : Int) {month : Int} (h : 0 ≤ month) (h' : month < 10) :
    monthLength year (month + 3) = monthsFromMarch (month + 1) - monthsFromMarch month := by
  interval_cases month <;> rfl

/-- The day of a year from March lies in the month. -/
structure InMonth (dayOfYear month : Int) : Prop where
  nonneg : 0 ≤ month
  lt : month < 12
  first : monthsFromMarch month ≤ dayOfYear
  last : dayOfYear < monthsFromMarch (month + 1)

/-- Every day of a year from March is in one of its twelve months. -/
theorem inMonth {day : Int} (h : 0 ≤ day) (h' : day ≤ 365) : InMonth day ((5 * day + 2) / 153) := by
  refine ⟨by omega, by omega, ?_, ?_⟩
  · unfold monthsFromMarch
    omega
  · unfold monthsFromMarch
    omega

/-- The days of a year from March are dates. -/
theorem isDate_ofMarch {year day : Int} (h : 0 ≤ day)
    (h' : day < 365 ∨ day = 365 ∧ IsLeap (year + 1)) : (ofMarch year day).IsDate := by
  obtain ⟨nonneg, lt, first, last⟩ := inMonth h (by omega)
  unfold ofMarch
  generalize (5 * day + 2) / 153 = month at *
  dsimp only
  split
  next spring =>
    have length := monthLength_spring year nonneg spring
    exact ⟨by dsimp only; omega, by dsimp only; omega, by dsimp only; omega, by dsimp only; omega⟩
  next winter =>
    have length : day - monthsFromMarch month + 1 ≤ monthLength (year + 1) (month - 9) := by
      obtain rfl | rfl : month = 10 ∨ month = 11 := by omega
      · have before : monthsFromMarch (10 + 1) = 337 := rfl
        show day - 306 + 1 ≤ 31
        omega
      · -- the last month has a day 365 only in a leap year
        show day - 337 + 1 ≤ if IsLeap (year + 1) then 29 else 28
        split <;> omega
    exact ⟨by dsimp only; omega, by dsimp only; omega, by dsimp only; omega, length⟩

/-- The days of a year from March are counted from its first. -/
theorem number_ofMarch {year day : Int} (h : 0 ≤ day) (h' : day ≤ 365) :
    number (ofMarch year day) = marchStart year + day := by
  obtain ⟨nonneg, lt, -, -⟩ := inMonth h h'
  unfold ofMarch
  generalize (5 * day + 2) / 153 = month at *
  dsimp only
  split
  next spring =>
    rw [number_spring nonneg spring]
    omega
  next winter =>
    rw [number_winter (Int.not_lt.mp winter) lt]
    omega

/-! ### The day of a number -/

/-- The day that is found for a number is a date. -/
theorem isDate_ofDayNumber (n : Int) : (ofDayNumber n).IsDate := by
  obtain ⟨year, day, found, -, low, high⟩ := exists_ofMarch n
  rw [found]
  exact isDate_ofMarch low high

/-- **Every number has its day.** -/
theorem number_ofDayNumber (n : Int) : number (ofDayNumber n) = n := by
  obtain ⟨year, day, found, count, low, high⟩ := exists_ofMarch n
  rw [found, number_ofMarch low (by omega), count]

/-- Counting and finding are inverse to each other. -/
theorem ofDayNumber_eq_iff {n : Int} {d : CalendarDay} :
    ofDayNumber n = d ↔ d.IsDate ∧ number d = n := by
  constructor
  · rintro rfl
    exact ⟨isDate_ofDayNumber n, number_ofDayNumber n⟩
  · rintro ⟨date, rfl⟩
    exact (isDate_ofDayNumber _).eq_of_number_eq date (number_ofDayNumber _)

example : ofDayNumber (-25509) = ⟨1900, 2, 28⟩ ∧ ofDayNumber (-25508) = ⟨1900, 3, 1⟩ := by decide

end PhotoQuery.CalendarDay
