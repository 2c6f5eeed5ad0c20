import SelectCompiler.Calendar.Reading
import SelectCompiler.Proofs.Calendar.Days

/-!
Stepping through the calendar. The day after has the next number and the day before the one before,
across the ends of months and years; so a clock that is less than a day ahead is moved by exactly
the minutes that it is ahead.
-/

namespace SelectCompiler

open Calendar

theorem Calendar.one_le_daysIn (year : Int) (month : Nat) : 1 ≤ daysIn year month := by
  unfold daysIn
  repeat' split
  all_goals decide

namespace Date

variable {date : Date}

/-- The date that these parts make has the number that they add up to. -/
theorem exists_dayNumber (year : Int) (month day : Nat) (inRange : YearInRange year)
    (monthly : 1 ≤ month ∧ month ≤ 12) (daily : 1 ≤ day ∧ day ≤ daysIn year month) :
    ∃ date, ofParts? year month day = some date ∧
      date.dayNumber = daysBefore year + daysThrough year (month - 1) + day :=
  ⟨⟨year, month, day, inRange, monthly, daily⟩, ofParts?_eq_some_iff.mpr ⟨rfl, rfl, rfl⟩, rfl⟩

/-- The day after has the next number, at the end of a month and of a year as well. -/
theorem exists_next? (room : date.year < 262142) :
    ∃ next, date.next? = some next ∧ next.dayNumber = date.dayNumber + 1 := by
  have inRange := date.year_inRange
  have monthly := date.month_inRange
  have daily := date.day_inRange
  have months := daysThrough_month date
  unfold next?
  -- Inside a month, at the end of one, and at the end of December.
  split
  · rename_i inside
    obtain ⟨next, found, number⟩ :=
      exists_dayNumber _ _ (date.day + 1) inRange monthly ⟨by omega, inside⟩
    refine ⟨next, found, ?_⟩
    rw [number, dayNumber]
    omega
  · split
    · rename_i last early
      obtain ⟨next, found, number⟩ :=
        exists_dayNumber _ (date.month + 1) 1 inRange ⟨by omega, by omega⟩
          ⟨le_rfl, one_le_daysIn _ _⟩
      refine ⟨next, found, ?_⟩
      rw [number, dayNumber, Nat.add_sub_cancel]
      omega
    · rename_i last december
      obtain ⟨next, found, number⟩ :=
        exists_dayNumber (date.year + 1) 1 1
          ⟨Int.le_add_one inRange.1, room⟩ ⟨le_rfl, by decide⟩ ⟨le_rfl, one_le_daysIn _ _⟩
      have none : daysThrough (date.year + 1) (1 - 1) = 0 := rfl
      have twelve : date.month = 12 := by omega
      refine ⟨next, found, ?_⟩
      rw [twelve] at months last daily
      rw [number, dayNumber, daysBefore_succ, twelve, months, none]
      omega

/-- The day before has the number before. -/
theorem exists_previous? (room : -262143 < date.year) :
    ∃ previous, date.previous? = some previous ∧ previous.dayNumber = date.dayNumber - 1 := by
  have inRange := date.year_inRange
  have monthly := date.month_inRange
  have daily := date.day_inRange
  unfold previous?
  -- Inside a month, on the first day of one, and on New Year.
  split
  · rename_i inside
    obtain ⟨previous, found, number⟩ :=
      exists_dayNumber _ _ (date.day - 1) inRange monthly ⟨by omega, by omega⟩
    refine ⟨previous, found, ?_⟩
    rw [number, dayNumber]
    omega
  · split
    · rename_i first late
      obtain ⟨previous, found, number⟩ :=
        exists_dayNumber _ (date.month - 1) _ inRange ⟨by omega, by omega⟩
          ⟨one_le_daysIn _ _, le_rfl⟩
      have months := previous.daysThrough_month
      obtain ⟨years, same, _⟩ := ofParts?_eq_some_iff.mp found
      rw [years, same] at months
      refine ⟨previous, found, ?_⟩
      rw [number, dayNumber, months]
      omega
    · rename_i first january
      obtain ⟨previous, found, number⟩ :=
        exists_dayNumber (date.year - 1) 12 31
          ⟨Int.le_sub_one_of_lt room, Int.le_trans (Int.sub_le_self _ (by decide)) inRange.2⟩
          ⟨by decide, le_rfl⟩ ⟨by decide, le_rfl⟩
      have one : date.month = 1 := by omega
      have none : daysThrough date.year (1 - 1) = 0 := rfl
      have december : daysThrough (date.year - 1) 12 =
          daysThrough (date.year - 1) (12 - 1) + 31 := rfl
      have years := daysBefore_succ (date.year - 1)
      rw [Int.sub_add_cancel, december] at years
      refine ⟨previous, found, ?_⟩
      rw [number, dayNumber, one, years, none]
      omega

end Date

theorem TimeOfDay.minutes_atMinute (time : TimeOfDay) {minutes : Nat} (inDay : minutes < 1440) :
    (time.atMinute minutes inDay).minutes = minutes := by
  unfold TimeOfDay.minutes atMinute
  exact Nat.div_add_mod' minutes 60

namespace Timestamp

variable {timestamp : Timestamp} {minutes : Int}

/-- Less than a day away there is a timestamp, in whatever month or year, if it is in range. -/
theorem exists_earlier? (past : -262143 < timestamp.date.year)
    (future : timestamp.date.year < 262142) (after : -1440 < minutes) (before : minutes < 1440) :
    ∃ earlier, timestamp.earlier? minutes = some earlier ∧ earlier.Precedes timestamp minutes := by
  have inDay := timestamp.time.minutes_lt
  have moved (days : Int) (date : Date) (number : date.dayNumber = timestamp.date.dayNumber + days)
      (within : 0 ≤ timestamp.time.minutes - minutes - days * 1440 ∧
        timestamp.time.minutes - minutes - days * 1440 < 1440) :
      Precedes ⟨date, timestamp.time.atMinute
        ((timestamp.time.minutes - minutes) % 1440).toNat (by omega)⟩ timestamp minutes := by
    refine ⟨?_, rfl, rfl⟩
    rw [minuteNumber, TimeOfDay.minutes_atMinute, number, minuteNumber]
    omega
  by_cases negative : (timestamp.time.minutes : Int) - minutes < 0
  · obtain ⟨date, found, number⟩ := Date.exists_previous? past
    simp only [earlier?, if_pos negative, found, Option.map_some]
    exact ⟨_, rfl, moved (-1) date number ⟨by omega, by omega⟩⟩
  by_cases beyond : 1440 ≤ (timestamp.time.minutes : Int) - minutes
  · obtain ⟨date, found, number⟩ := Date.exists_next? future
    simp only [earlier?, if_neg negative, if_pos beyond, found, Option.map_some]
    exact ⟨_, rfl, moved 1 date number ⟨by omega, by omega⟩⟩
  · simp only [earlier?, if_neg negative, if_neg beyond, Option.map_some]
    exact ⟨_, rfl, moved 0 timestamp.date (by omega) ⟨by omega, by omega⟩⟩

end Timestamp

end SelectCompiler
