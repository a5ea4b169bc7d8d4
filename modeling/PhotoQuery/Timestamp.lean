import PhotoQuery.Number.Rounding

/-!
# Timestamp — instants and calendar days

An instant is a number of milliseconds since the first of January 1970, in universal time; a date
that could not be read is `invalid`.  `CalendarDay.ofDayNumber` finds the day of the Gregorian
calendar, extended to all years, from the number of days since 1970.

It counts from the first of March of year 0.  From there a leap day is the last day of its year,
its four-year cycle, and its four centuries, so each division takes whole periods and only the last
year of a cycle and the last century of four are a day longer than the others.
-/

namespace PhotoQuery

/-- A day of the calendar. -/
structure CalendarDay where
  year : Int
  month : Int
  day : Int
deriving DecidableEq

/-- The day that comes the given number of days after the first of January 1970. -/
def CalendarDay.ofDayNumber (n : Int) : CalendarDay :=
  let sinceMarch := n + 719468
  let era := sinceMarch / 146097
  let dayOfEra := sinceMarch % 146097
  let century := min 3 (dayOfEra / 36524)
  let dayOfCentury := dayOfEra - century * 36524
  let cycle := dayOfCentury / 1461
  let dayOfCycle := dayOfCentury % 1461
  let yearOfCycle := min 3 (dayOfCycle / 365)
  let dayOfYear := dayOfCycle - yearOfCycle * 365
  let year := era * 400 + century * 100 + cycle * 4 + yearOfCycle
  let month := (5 * dayOfYear + 2) / 153
  let day := dayOfYear - (153 * month + 2) / 5 + 1
  if month < 10 then ⟨year, month + 3, day⟩ else ⟨year + 1, month - 9, day⟩

/-- An instant, or a date that is none. -/
inductive Timestamp where
  | instant (milliseconds : Int)
  | invalid
deriving DecidableEq

namespace Timestamp

/-- The order of two instants; nothing compares with an invalid date. -/
def compare? : Timestamp → Timestamp → Option Ordering
  | .instant a, .instant b => some (compare a b)
  | _, _ => none

theorem compare?_swap (a b : Timestamp) : compare? b a = (compare? a b).map Ordering.swap := by
  cases a with
  | invalid => cases b <;> rfl
  | instant s =>
    cases b with
    | invalid => rfl
    | instant t => exact congrArg some Std.OrientedOrd.eq_swap

/-- The day of an instant, in universal time. -/
def day? : Timestamp → Option CalendarDay
  | .instant ms => some (.ofDayNumber (ms / 86400000))
  | .invalid => none

end Timestamp

end PhotoQuery
