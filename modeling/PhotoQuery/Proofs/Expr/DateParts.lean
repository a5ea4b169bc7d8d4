import Mathlib.Logic.ExistsUnique
import PhotoQuery.Proofs.Calendar.Day
import PhotoQuery.Proofs.Expr.Checking
import PhotoQuery.Proofs.Number.Safe

/-!
# Expr — the parts of a date

The functions `year`, `month` and `day` show the day of an instant: the day of the calendar whose
number is that of the whole days since 1970, rounded down also before 1970.  The instants that a
date can hold lie within a hundred million days of 1970, so all three parts are exact numbers
(`CalendarDay.natAbs_part_le`), and later instants never show earlier days
(`Expr.dateParts_show_day`).
-/

namespace PhotoQuery

open Text Outcome

/-! ### Parts of days -/

/-- The part of a day. -/
def CalendarDay.part (d : CalendarDay) : DatePart → Int
  | .year => d.year
  | .month => d.month
  | .day => d.day

/-- A day is made of its parts. -/
theorem CalendarDay.ext_part {d d' : CalendarDay} (h : ∀ part, d.part part = d'.part part) :
    d = d' := by
  obtain ⟨year, month, day⟩ := d
  obtain rfl : year = d'.year := h .year
  obtain rfl : month = d'.month := h .month
  obtain rfl : day = d'.day := h .day
  rfl

/-- The greatest distance from 1970, in milliseconds, that a date can have. -/
def Timestamp.maxDistance : Nat := 8640000000000000

/-- An instant that a date can have is within a hundred million days of 1970. -/
theorem Timestamp.natAbs_dayNumber_le {ms : Int} (h : ms.natAbs ≤ maxDistance) :
    (ms / 86400000).natAbs ≤ 100000000 := by
  unfold maxDistance at h
  omega

/-- The parts of the days that a date can have are safe integers. -/
theorem CalendarDay.natAbs_part_le {d : CalendarDay} (date : d.IsDate)
    (near : d.number.natAbs ≤ 100000000) (part : DatePart) : (d.part part).natAbs ≤ maxSafe := by
  have start := date.yearStart_le_number
  have stop := date.number_lt_year
  have length := monthLength_le d.year d.month
  obtain ⟨hm, hm', hd, hd'⟩ := date
  unfold yearStart at start stop
  unfold maxSafe
  cases part <;> simp only [CalendarDay.part] <;> omega

/-- The part of an instant is that of the day it falls on. -/
theorem DatePart.read_instant (part : DatePart) (ms : Int) :
    part.read (.instant ms) = .ofInt ((CalendarDay.ofDayNumber (ms / 86400000)).part part) := by
  cases part <;> rfl

/-! ### Calls -/

/-- A reading that has a date for a photo is one of dates. -/
theorem Reading.exists_date_of_value {r : Reading} {photo : Image} {date : Timestamp}
    (h : r.value photo = some (.date date)) : ∃ read, r = .date read ∧ read photo = some date := by
  cases r with
  | date read => exact ⟨read, rfl, by simpa [value] using h⟩
  | null => cases h
  | _ => simp [value] at h

namespace Expr

variable {e : Expr} {photo : Image} {ms : Int} {d d' : CalendarDay}

/-- The expression reads the instant off the photo. -/
def ReadsInstant (e : Expr) (photo : Image) (ms : Int) : Prop :=
  ∃ c, e.compile = .ok c ∧ c.value photo = some (.date (.instant ms))

/-- The calls of the three functions on the expression give the parts of the day for the photo, as
exact numbers. -/
def ShowsDay (e : Expr) (photo : Image) (d : CalendarDay) : Prop :=
  ∀ (part : DatePart) (name : Text) (position : Nat),
    name.IsNamed (Function.name (.datePart part)) →
      (∃ c, compile (.call name position [e]) = .ok c ∧
        c.value photo = some (.number (.ofInt (d.part part)))) ∧
      (Number.ofInt (d.part part)).safeInteger? = some (d.part part)

/-- The call of a date part compiles, and gives the part where the argument is there. -/
theorem compile_datePart {c : Compiled} (he : e.compile = .ok c) {date : Timestamp}
    (hv : c.value photo = some (.date date)) {name : Text} {part : DatePart}
    (named : name.IsNamed (Function.name (.datePart part))) (position : Nat) :
    ∃ r, compile (.call name position [e]) = .ok r ∧
      r.value photo = some (.number (part.read date)) := by
  obtain ⟨read, hr, hv⟩ := Reading.exists_date_of_value hv
  have args : compileAll [e] = .ok [c] := by simp only [compileAll, he, ok_bind]
  refine ⟨_, compile_call named args (by simp only [Function.call, hr]; rfl), ?_⟩
  simp only [Compiled.value, Reading.value, hv, Option.map_some]

/-- An expression that reads an instant shows the day it falls on. -/
theorem ReadsInstant.showsDay (reads : e.ReadsInstant photo ms)
    (range : ms.natAbs ≤ Timestamp.maxDistance) :
    e.ShowsDay photo (.ofDayNumber (ms / 86400000)) := by
  obtain ⟨c, he, hv⟩ := reads
  intro part name position named
  obtain ⟨r, compiled, value⟩ := compile_datePart he hv named position
  rw [DatePart.read_instant] at value
  have near := Timestamp.natAbs_dayNumber_le range
  rw [← CalendarDay.number_ofDayNumber (ms / 86400000)] at near
  have safe := CalendarDay.natAbs_part_le (CalendarDay.isDate_ofDayNumber _) near part
  exact ⟨⟨r, compiled, value⟩, Number.safeInteger?_ofInt safe⟩

/-- A photo shows one day. -/
theorem ShowsDay.unique (h : e.ShowsDay photo d) (h' : e.ShowsDay photo d') : d = d' := by
  refine CalendarDay.ext_part fun part => ?_
  have named : (ofString (Function.name (.datePart part))).IsNamed
      (Function.name (.datePart part)) := by cases part <;> decide
  obtain ⟨⟨c, compiled, value⟩, exact⟩ := h part _ 0 named
  obtain ⟨⟨c', compiled', value'⟩, exact'⟩ := h' part _ 0 named
  obtain rfl := Except.ok.inj (compiled.symm.trans compiled')
  have same : Number.ofInt (d.part part) = Number.ofInt (d'.part part) := by
    simpa using value.symm.trans value'
  rw [same] at exact
  exact Option.some.inj (exact.symm.trans exact')

/-- **The parts of a date are those of its day.**  Take an expression that reads an instant off a
photo, one that a date can hold.  The calendar has one day with the number of the whole days since
1970 up to the instant, and `year`, `month` and `day` of the expression are the parts of that day.
An expression that reads a later instant, off this photo or another one, never shows an earlier
day. -/
theorem dateParts_show_day (range : ms.natAbs ≤ Timestamp.maxDistance)
    (reads : e.ReadsInstant photo ms) :
    (∃! d : CalendarDay, d.IsDate ∧ d.number = ms / 86400000) ∧
      (∀ d : CalendarDay, d.IsDate → d.number = ms / 86400000 → e.ShowsDay photo d) ∧
      ∀ (e' : Expr) (photo' : Image) (ms' : Int), ms'.natAbs ≤ Timestamp.maxDistance →
        e'.ReadsInstant photo' ms' → ms ≤ ms' →
        ∀ d d', e.ShowsDay photo d → e'.ShowsDay photo' d' → d.LexLe d' := by
  have shows := reads.showsDay range
  refine ⟨⟨.ofDayNumber (ms / 86400000), ?_, ?_⟩, ?_, ?_⟩
  · exact ⟨CalendarDay.isDate_ofDayNumber _, CalendarDay.number_ofDayNumber _⟩
  · exact fun d ⟨date, count⟩ => (CalendarDay.ofDayNumber_eq_iff.mpr ⟨date, count⟩).symm
  · intro d date count
    rwa [← CalendarDay.ofDayNumber_eq_iff.mpr ⟨date, count⟩]
  · intro e' photo' ms' range' reads' le d d' hd hd'
    obtain rfl := hd.unique shows
    obtain rfl := hd'.unique (reads'.showsDay range')
    rw [(CalendarDay.isDate_ofDayNumber _).lexLe_iff (CalendarDay.isDate_ofDayNumber _),
      CalendarDay.number_ofDayNumber, CalendarDay.number_ofDayNumber]
    exact Int.ediv_le_ediv (by decide) le

/-- The last millisecond before the leap day of 1600, and the last one before 1970. -/
theorem dateParts_show_day_leap :
    let taken : Expr := .property [ofString "dateTaken"] 5
    let photo (ms : Int) : Image := ⟨ofString "a.jpg", .zero, .zero, some (.instant ms), none⟩
    let early : Int := -11670998400001
    early.natAbs ≤ Timestamp.maxDistance ∧ (-1 : Int).natAbs ≤ Timestamp.maxDistance ∧
      taken.ReadsInstant (photo early) early ∧ taken.ReadsInstant (photo (-1)) (-1) ∧
      early ≤ -1 ∧ taken.ShowsDay (photo early) ⟨1600, 2, 28⟩ ∧
      taken.ShowsDay (photo (-1)) ⟨1969, 12, 31⟩ ∧
      CalendarDay.LexLe ⟨1600, 2, 28⟩ ⟨1969, 12, 31⟩ := by
  intro taken photo early
  have reads : ∀ ms, taken.ReadsInstant (photo ms) ms := fun ms => ⟨_, rfl, rfl⟩
  have range : early.natAbs ≤ Timestamp.maxDistance := by decide
  have range' : (-1 : Int).natAbs ≤ Timestamp.maxDistance := by decide
  obtain ⟨-, shows, order⟩ := dateParts_show_day range (reads early)
  obtain ⟨-, shows', -⟩ := dateParts_show_day range' (reads (-1))
  have first := shows ⟨1600, 2, 28⟩ ⟨by decide, by decide, by decide, by decide⟩ (by decide)
  have last := shows' ⟨1969, 12, 31⟩ ⟨by decide, by decide, by decide, by decide⟩ (by decide)
  exact ⟨range, range', reads early, reads (-1), by decide, first, last,
    order taken (photo (-1)) (-1) range' (reads (-1)) (by decide) _ _ first last⟩

end Expr

end PhotoQuery
