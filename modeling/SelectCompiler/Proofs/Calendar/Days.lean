import Mathlib.Order.Monotone.Basic
import SelectCompiler.Calendar.Basic

/-!
Days and minutes counted through the calendar. Every date has a number of its own, and of all
timestamps only one is so many minutes before another, whatever month or year it lies in.
-/

namespace SelectCompiler

namespace Calendar

/-- The days of the first months of a year. -/
def daysThrough (year : Int) : Nat → Nat
  | 0 => 0
  | month + 1 => daysThrough year month + daysIn year (month + 1)

/-- The days from the beginning of the year 1 to that of the given year: every fourth year has a
day more, but of the hundredth years only the four-hundredth have. -/
def daysBefore (year : Int) : Int :=
  365 * (year - 1) + (year - 1) / 4 - (year - 1) / 100 + (year - 1) / 400

variable {year : Int} {month : Nat}

theorem daysThrough_twelve (year : Int) :
    daysThrough year 12 = if isLeapYear year then 366 else 365 := by
  simp only [daysThrough, daysIn]
  split <;> rfl

theorem daysBefore_succ (year : Int) :
    daysBefore (year + 1) = daysBefore year + daysThrough year 12 := by
  rw [daysThrough_twelve, daysBefore, daysBefore]
  by_cases leap : isLeapYear year = true
  · rw [if_pos leap]
    simp only [isLeapYear, Bool.and_eq_true, Bool.or_eq_true, decide_eq_true_eq] at leap
    omega
  · rw [if_neg leap]
    simp only [isLeapYear, Bool.and_eq_true, Bool.or_eq_true, decide_eq_true_eq] at leap
    omega

theorem daysBefore_mono {first second : Int} (before : first ≤ second) :
    daysBefore first ≤ daysBefore second := by
  unfold daysBefore
  omega

theorem daysThrough_mono (year : Int) : Monotone (daysThrough year) :=
  monotone_nat_of_le_succ fun _ => Nat.le_add_right _ _

end Calendar

open Calendar

namespace Date

/-- The number of a date: the days from the beginning of the year 1 up to it. -/
def dayNumber (date : Date) : Int :=
  daysBefore date.year + daysThrough date.year (date.month - 1) + date.day

theorem ext_iff {first second : Date} :
    first = second ↔
      first.year = second.year ∧ first.month = second.month ∧ first.day = second.day := by
  cases first
  cases second
  simp

theorem ofParts?_eq_some_iff {year : Int} {month day : Nat} {date : Date} :
    ofParts? year month day = some date ↔
      date.year = year ∧ date.month = month ∧ date.day = day := by
  unfold ofParts?
  split
  · rw [Option.some_inj, ext_iff]
    simp only [eq_comm]
  · rename_i outside
    refine iff_of_false nofun ?_
    rintro ⟨rfl, rfl, rfl⟩
    exact outside ⟨date.year_inRange, date.month_inRange, date.day_inRange⟩

variable {date first second : Date}

theorem daysThrough_month (date : Date) :
    daysThrough date.year date.month =
      daysThrough date.year (date.month - 1) + daysIn date.year date.month := by
  obtain ⟨month, same⟩ := Nat.exists_eq_add_of_le' date.month_inRange.1
  rw [same]
  rfl

/-- The number of a date lies between the days before its month and those through it. -/
theorem dayNumber_bounds (date : Date) :
    daysBefore date.year + daysThrough date.year (date.month - 1) < date.dayNumber ∧
      date.dayNumber ≤ daysBefore date.year + daysThrough date.year date.month := by
  obtain ⟨least, most⟩ := date.day_inRange
  rw [daysThrough_month, dayNumber]
  omega

theorem dayNumber_lt_of_year_lt (earlier : first.year < second.year) :
    first.dayNumber < second.dayNumber := by
  have within : daysThrough first.year first.month ≤ daysThrough first.year 12 :=
    daysThrough_mono first.year first.month_inRange.2
  have later : daysBefore (first.year + 1) ≤ daysBefore second.year := daysBefore_mono earlier
  have last := first.dayNumber_bounds.2
  have start := second.dayNumber_bounds.1
  rw [daysBefore_succ] at later
  omega

theorem dayNumber_lt_of_month_lt (same : first.year = second.year)
    (earlier : first.month < second.month) : first.dayNumber < second.dayNumber := by
  have within : daysThrough first.year first.month ≤ daysThrough first.year (second.month - 1) :=
    daysThrough_mono first.year (Nat.le_sub_one_of_lt earlier)
  have last := first.dayNumber_bounds.2
  have start := second.dayNumber_bounds.1
  rw [← same] at start
  omega

/-- No two dates have the same number. -/
theorem dayNumber_injective : Function.Injective dayNumber := by
  intro first second same
  have years : first.year = second.year := by
    rcases lt_trichotomy first.year second.year with before | equal | behind
    · exact absurd same (dayNumber_lt_of_year_lt before).ne
    · exact equal
    · exact absurd same (dayNumber_lt_of_year_lt behind).ne'
  have months : first.month = second.month := by
    rcases lt_trichotomy first.month second.month with before | equal | behind
    · exact absurd same (dayNumber_lt_of_month_lt years before).ne
    · exact equal
    · exact absurd same (dayNumber_lt_of_month_lt years.symm behind).ne'
  refine ext_iff.mpr ⟨years, months, ?_⟩
  rw [dayNumber, dayNumber, years, months] at same
  omega

end Date

theorem TimeOfDay.minutes_lt (time : TimeOfDay) : time.minutes < 1440 := by
  have hour := time.hour_lt
  have minute := time.minute_lt
  unfold minutes
  omega

theorem TimeOfDay.ext_iff {first second : TimeOfDay} :
    first = second ↔ first.minutes = second.minutes ∧ first.second = second.second ∧
      first.nanosecond = second.nanosecond := by
  constructor
  · rintro rfl
    exact ⟨rfl, rfl, rfl⟩
  · rintro ⟨minutes, seconds, nanoseconds⟩
    have minute := first.minute_lt
    have minuteToo := second.minute_lt
    unfold TimeOfDay.minutes at minutes
    have hours : first.hour = second.hour := by omega
    have minutes : first.minute = second.minute := by omega
    cases first
    cases second
    simp_all

namespace Timestamp

/-- The number of the minute of a timestamp. -/
def minuteNumber (timestamp : Timestamp) : Int :=
  timestamp.date.dayNumber * 1440 + timestamp.time.minutes

/-- The first timestamp lies the given number of minutes before the second, or after it if the
number is negative, at the same second of its minute. -/
structure Precedes (earlier later : Timestamp) (minutes : Int) : Prop where
  minute : earlier.minuteNumber = later.minuteNumber - minutes
  second : earlier.time.second = later.time.second
  nanosecond : earlier.time.nanosecond = later.time.nanosecond

variable {timestamp earlier other : Timestamp} {minutes : Int}

theorem precedes_zero (timestamp : Timestamp) : timestamp.Precedes timestamp 0 :=
  ⟨(Int.sub_zero _).symm, rfl, rfl⟩

/-- There is only one timestamp so many minutes before another. -/
theorem Precedes.unique (precedes : earlier.Precedes timestamp minutes)
    (alike : other.Precedes timestamp minutes) : other = earlier := by
  have number := alike.minute.trans precedes.minute.symm
  have inDay := earlier.time.minutes_lt
  have inDayToo := other.time.minutes_lt
  -- The minutes of a day are fewer than 1440, so equal numbers have the same day and minute.
  unfold minuteNumber at number
  have date : other.date = earlier.date := Date.dayNumber_injective (by omega)
  have time : other.time = earlier.time := TimeOfDay.ext_iff.mpr
    ⟨by omega, alike.second.trans precedes.second.symm,
      alike.nanosecond.trans precedes.nanosecond.symm⟩
  cases earlier
  cases other
  simp_all

end Timestamp

end SelectCompiler
