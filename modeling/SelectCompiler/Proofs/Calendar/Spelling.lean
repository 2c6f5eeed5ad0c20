import SelectCompiler.Proofs.Calendar.Laws

/-!
The spellings of a date and of a timestamp. Whichever is read gives the date or the timestamp that
the written numbers make, and nothing if they make none: no spelling is taken for another one by a
layout that is tried before its own. A clock that is ahead of universal time is moved to it.
-/

namespace SelectCompiler

open Calendar

namespace Calendar

/-- What is tried first counts first. -/
theorem findSome?_cons_eq_or {α β : Type} (tried : α → Option β) (first : α) (others : List α) :
    (first :: others).findSome? tried = (tried first).or (others.findSome? tried) := by
  rw [List.findSome?_cons]
  cases tried first <;> rfl

/-- What may stand between the numbers of a date or a time, or behind them. -/
def marks : List String :=
  ["-", ":", "T", "Z", "+"]

theorem visible_mark {mark : String} (listed : mark ∈ marks) :
    ∀ c ∈ mark.toList, Text.isBlank c = false := by
  have visible : (mark.toList.all fun c => !Text.isBlank c) = true := by
    revert mark
    decide
  simpa using visible

namespace Fields

/-- The numbers of a month and of a day in it. -/
def DateInRange (fields : Fields) : Prop :=
  (1 ≤ fields.month ∧ fields.month ≤ 12) ∧
    1 ≤ fields.day ∧ fields.day ≤ daysIn fields.year fields.month

/-- The numbers of a time of day; there may be a leap second. -/
def TimeInRange (fields : Fields) : Prop :=
  fields.hour < 24 ∧ fields.minute < 60 ∧ fields.second ≤ 60

variable {fields : Fields}

theorem date?_eq_none (outside : ¬fields.DateInRange) : fields.date? = none := by
  rw [date?, Date.ofParts?, dif_neg]
  rintro ⟨_, month, day⟩
  exact outside ⟨month, day⟩

theorem timestamp?_eq_none (outside : ¬(fields.DateInRange ∧ fields.TimeInRange)) :
    fields.timestamp? = none := by
  by_cases dated : fields.DateInRange
  · have late : TimeOfDay.ofParts? fields.hour fields.minute fields.second fields.nanosecond =
        none := by
      rw [TimeOfDay.ofParts?, dif_neg]
      rintro ⟨hour, minute, second, _⟩
      exact outside ⟨dated, hour, minute, second⟩
    rw [timestamp?, late]
    cases fields.date? <;> rfl
  · rw [timestamp?, date?_eq_none dated]
    rfl

end Fields

section Heads

variable {fields : Fields} (rest : List LayoutItem) (tail : String)

theorem head?_literal (c : Char) :
    (write fields (.literal c :: rest) ++ tail).toList.head? = some c := by
  rw [String.toList_append, toList_write]
  rfl

theorem head?_blanks :
    (write fields (.blanks :: rest) ++ tail).toList.head? = some ' ' := by
  rw [String.toList_append, toList_write]
  rfl

theorem exists_head?_month (writable : fields.Writable) :
    ∃ c, (write fields (.month :: rest) ++ tail).toList.head? = some c ∧ c.isDigit = true := by
  obtain ⟨c, others, month, digit⟩ := (isNumeral_two writable.month).exists_first
  refine ⟨c, ?_, digit⟩
  rw [String.toList_append, toList_write, List.flatMap_cons, LayoutItem.write, month]
  rfl

end Heads

theorem LayoutItem.length_write {fields : Fields} (writable : fields.Writable)
    (item : LayoutItem) : (item.write fields).length = item.width := by
  cases item with
  | year | month | day | hour | minute | second =>
    refine (isNumeral_write writable ?_).elim fun _ numeral => numeral.length
    decide
  | literal c | blanks => rfl

/-- How many characters a layout takes. -/
def width : List LayoutItem → Nat
  | [] => 0
  | item :: rest => item.width + width rest

theorem length_write {fields : Fields} (writable : fields.Writable) (layout : List LayoutItem) :
    (write fields layout).toList.length = width layout := by
  rw [toList_write]
  induction layout with
  | nil => rfl
  | cons item rest ih =>
    rw [List.flatMap_cons, List.length_append, item.length_write writable, ih, width]

namespace FollowsLayouts

variable {α : Type} {needed : List LayoutItem} {make : Fields → Option α}
  {read : List LayoutItem → String → Option α} {fields : Fields}

theorem tight_dashedDate : ∀ item ∈ dashedDate, item.isTight = true :=
  List.all_eq_true.mp (by decide)

/-- Behind the year there is a dash where the month is expected. -/
theorem plain_of_dashed (follows : FollowsLayouts needed make read) (writable : fields.Writable)
    (items others : List LayoutItem) (tail : String) :
    read (plainDate ++ items) (write fields (dashedDate ++ others) ++ tail) = none := by
  have split : write fields (dashedDate ++ others) ++ tail = write fields [.year] ++
      (write fields (.literal '-' :: .month :: .literal '-' :: .day :: others) ++ tail) := by
    rw [← String.append_assoc, ← write_cons]
    rfl
  rw [split]
  refine follows.number [.year] [] (.day :: items) _ writable (List.all_eq_true.mp rfl)
    (List.forall_mem_nil _) rfl ?_
  rw [head?_literal]
  rintro _ ⟨⟩
  decide

/-- Behind the year there is a digit where a dash is expected. -/
theorem dashed_of_plain (follows : FollowsLayouts needed make read) (writable : fields.Writable)
    (items others : List LayoutItem) (tail : String) :
    read (dashedDate ++ items) (write fields (plainDate ++ others) ++ tail) = none := by
  have split : write fields (plainDate ++ others) ++ tail =
      write fields [.year] ++ (write fields (.month :: .day :: others) ++ tail) := by
    rw [← String.append_assoc, ← write_cons]
    rfl
  rw [split]
  refine follows.literal [.year] (.month :: .literal '-' :: .day :: items) _ writable
    (List.all_eq_true.mp rfl) ?_
  obtain ⟨c, first, digit⟩ := exists_head?_month (.day :: others) tail writable
  have apart : c ≠ '-' := ne_of_apply_ne Char.isDigit (by rw [digit]; decide)
  rw [first]
  exact mt Option.some.inj apart

/-- Behind the date there is a letter where the hour is expected. -/
theorem blanks_of_letter (follows : FollowsLayouts needed make read) (writable : fields.Writable)
    (others : List LayoutItem) (tail : String) :
    read (dashedDate ++ .blanks :: colonTime)
      (write fields (dashedDate ++ .literal 'T' :: others) ++ tail) = none := by
  rw [write_append, String.append_assoc]
  refine follows.number dashedDate [.blanks] _ _ writable tight_dashedDate
    (List.forall_mem_singleton.mpr rfl) rfl ?_
  rw [head?_literal]
  rintro _ ⟨⟩
  decide

/-- Behind the date there is a blank where a letter is expected. -/
theorem letter_of_blanks (follows : FollowsLayouts needed make read) (writable : fields.Writable)
    (items others : List LayoutItem) (tail : String) :
    read (dashedDate ++ .literal 'T' :: items)
      (write fields (dashedDate ++ .blanks :: others) ++ tail) = none := by
  rw [write_append, String.append_assoc]
  refine follows.literal dashedDate items _ writable tight_dashedDate ?_
  rw [head?_blanks]
  decide

end FollowsLayouts

namespace Readers.Lawful

variable {readers : Readers} {fields : Fields} {layout : List LayoutItem}

theorem date?_write (lawful : readers.Lawful) (writable : fields.Writable)
    (tried : layout ∈ dateLayouts) : readers.date? layout (write fields layout) = fields.date? := by
  have numbers : plainDate ⊆ layout ∧
      ∀ item ∈ layout, item ∈ plainDate ∨ item.isGap = true := by
    revert layout
    decide
  exact lawful.dates.written writable numbers.1 numbers.2

theorem timestamp?_write (lawful : readers.Lawful) (writable : fields.Writable)
    (tried : layout ∈ timestampLayouts) :
    readers.timestamp? layout (write fields layout) = fields.timestamp? := by
  have numbers : plainDate ++ plainTime ⊆ layout ∧
      ∀ item ∈ layout, item ∈ plainDate ++ plainTime ∨ item.isGap = true := by
    revert layout
    decide
  exact lawful.timestamps.written writable numbers.1 numbers.2

/-- A clock alone is none of a zone. -/
theorem zoned?_write (lawful : readers.Lawful) (writable : fields.Writable)
    (tried : layout ∈ timestampLayouts) : readers.zoned? (write fields layout) = none := by
  have short : width layout ≤ 19 := by
    revert layout
    decide
  rw [Option.eq_none_iff_forall_ne_some]
  intro zoned read
  have long := lawful.form read
  rw [length_write writable] at long
  exact absurd long (Nat.not_lt.mpr short)

end Readers.Lawful

namespace Zone

theorem write_ne_empty (zone : Zone) : zone.write ≠ "" := by
  cases zone <;> simp [write]

theorem visible_write (zone : Zone) : ∀ c ∈ zone.write.toList, Text.isBlank c = false := by
  cases zone with
  | universal => exact visible_mark (by decide)
  | ahead hours minutes | behind hours minutes =>
    simp only [write, String.toList_append, List.forall_mem_append]
    exact ⟨⟨⟨visible_mark (by decide), visible_padded⟩, visible_mark (by decide)⟩, visible_padded⟩

theorem minutes?_bounds {zone : Zone} {minutes : Int} (ahead : zone.minutes? = some minutes) :
    -1440 < minutes ∧ minutes < 1440 := by
  cases zone with
  | universal =>
    obtain rfl := Option.some.inj ahead
    decide
  | ahead hours rest | behind hours rest =>
    obtain ⟨inDay, same⟩ := Option.ite_none_right_eq_some.mp ahead
    obtain rfl := Option.some.inj same
    omega

end Zone

end Calendar

/-- How a date is written: with dashes between its numbers, or without. -/
inductive Date.Spelling where
  | dashed
  | plain

namespace Date

/-- The numbers of a date. -/
def fields (date : Date) : Fields :=
  { year := date.year, month := date.month, day := date.day }

theorem date?_fields (date : Date) : date.fields.date? = some date :=
  ofParts?_eq_some_iff.mpr ⟨rfl, rfl, rfl⟩

theorem day_lt (date : Date) : date.day < 100 := by
  have last : daysIn date.year date.month ≤ 31 := by
    unfold daysIn
    repeat' split
    all_goals decide
  exact Nat.lt_of_le_of_lt (date.day_inRange.2.trans last) (by decide)

theorem writable_fields {date : Date} (year : 0 ≤ date.year ∧ date.year ≤ 9999) :
    date.fields.Writable :=
  ⟨year, Nat.lt_of_le_of_lt date.month_inRange.2 (by decide), date.day_lt, Nat.zero_lt_succ _,
    Nat.zero_lt_succ _, Nat.zero_lt_succ _, rfl⟩

namespace Spelling

def write (fields : Fields) : Date.Spelling → String
  | .dashed =>
    padded 4 fields.year.toNat ++ "-" ++ padded 2 fields.month ++ "-" ++ padded 2 fields.day
  | .plain => padded 4 fields.year.toNat ++ padded 2 fields.month ++ padded 2 fields.day

theorem visible_write (fields : Fields) (spelling : Date.Spelling) :
    ∀ c ∈ (spelling.write fields).toList, Text.isBlank c = false := by
  have dash := visible_mark (show "-" ∈ marks by decide)
  cases spelling with
  | dashed =>
    simp only [write, String.toList_append, List.forall_mem_append]
    exact ⟨⟨⟨⟨visible_padded, dash⟩, visible_padded⟩, dash⟩, visible_padded⟩
  | plain =>
    simp only [write, String.toList_append, List.forall_mem_append]
    exact ⟨⟨visible_padded, visible_padded⟩, visible_padded⟩

theorem write_dashed (fields : Fields) :
    dashed.write fields = Calendar.write fields dashedDate := by
  rw [← String.toList_inj, toList_write]
  simp [write, dashedDate, LayoutItem.write]

theorem write_plain (fields : Fields) : plain.write fields = Calendar.write fields plainDate := by
  rw [← String.toList_inj, toList_write]
  simp [write, plainDate, LayoutItem.write]

end Spelling

variable {readers : Readers} {fields : Fields}

theorem ofText?_eq_or (readers : Readers) (text : String) :
    ofText? readers text =
      (readers.date? dashedDate text).or (readers.date? plainDate text) := by
  simp only [ofText?, dateLayouts, findSome?_cons_eq_or, List.findSome?_nil, Option.or_none]

/-- Both spellings are read as the date of their numbers, if these make one. -/
theorem ofText?_write (lawful : readers.Lawful) (writable : fields.Writable)
    (spelling : Date.Spelling) : ofText? readers (spelling.write fields) = fields.date? := by
  rw [ofText?_eq_or]
  cases spelling with
  | dashed =>
    have plain := lawful.dates.plain_of_dashed writable [] [] ""
    simp only [List.append_nil, String.append_empty] at plain
    rw [Spelling.write_dashed, lawful.date?_write writable (by decide), plain, Option.or_none]
  | plain =>
    have dashed := lawful.dates.dashed_of_plain writable [] [] ""
    simp only [List.append_nil, String.append_empty] at dashed
    rw [Spelling.write_plain, dashed, lawful.date?_write writable (by decide), Option.none_or]

end Date

/-- How a timestamp is written: with a space or the letter `T` between date and time, as digits
alone, or by the clock of a zone. -/
inductive Timestamp.Spelling where
  | spaced
  | joined
  | plain
  | zoned (zone : Zone)

namespace Timestamp

/-- The numbers of a timestamp. -/
def fields (moment : Timestamp) : Fields :=
  { moment.date.fields with
    hour := moment.time.hour
    minute := moment.time.minute
    second := moment.time.second
    nanosecond := moment.time.nanosecond }

theorem timestamp?_fields (moment : Timestamp) : moment.fields.timestamp? = some moment := by
  have date : moment.fields.date? = some moment.date := moment.date.date?_fields
  have time : TimeOfDay.ofParts? moment.fields.hour moment.fields.minute moment.fields.second
      moment.fields.nanosecond = some moment.time :=
    dif_pos ⟨moment.time.hour_lt, moment.time.minute_lt, moment.time.second_le,
      moment.time.nanosecond_lt⟩
  rw [Fields.timestamp?, date, time]
  rfl

theorem writable_fields {moment : Timestamp}
    (year : 0 ≤ moment.date.year ∧ moment.date.year ≤ 9999) (whole : moment.time.nanosecond = 0) :
    moment.fields.Writable := by
  have date := Date.writable_fields year
  have hour := moment.time.hour_lt
  have minute := moment.time.minute_lt
  have second := moment.time.second_le
  exact ⟨year, date.month, date.day, hour.trans (by decide), minute.trans (by decide),
    Nat.lt_of_le_of_lt second (by decide), whole⟩

namespace Spelling

/-- The time of day, with colons between its numbers. -/
def clock (fields : Fields) : String :=
  padded 2 fields.hour ++ ":" ++ padded 2 fields.minute ++ ":" ++ padded 2 fields.second

def write (fields : Fields) : Timestamp.Spelling → String
  | .spaced => Date.Spelling.dashed.write fields ++ " " ++ clock fields
  | .joined => Date.Spelling.dashed.write fields ++ "T" ++ clock fields
  | .plain =>
    Date.Spelling.plain.write fields ++ padded 2 fields.hour ++ padded 2 fields.minute
      ++ padded 2 fields.second
  | .zoned zone => Date.Spelling.dashed.write fields ++ "T" ++ clock fields ++ zone.write

/-- The distance from universal time, if there is one, is written with two digits for the hours and
the minutes. -/
def Writable : Timestamp.Spelling → Prop
  | .zoned zone => zone.Writable
  | .spaced | .joined | .plain => True

/-- The minutes by which the clock of a spelling is ahead of universal time: less than a day. -/
def ahead? : Timestamp.Spelling → Option Int
  | .zoned zone => zone.minutes?
  | .spaced | .joined | .plain => some 0

/-- The timestamp that a spelling stands for when the clock in it shows the given one. -/
def instant? (readers : Readers) (spelling : Timestamp.Spelling) (clock : Timestamp) :
    Option Timestamp :=
  match spelling with
  | .zoned zone => zone.minutes?.map fun ahead => readers.universal ⟨clock, ahead⟩
  | .spaced | .joined | .plain => some clock

theorem instant?_eq_none {readers : Readers} {spelling : Timestamp.Spelling} (clock : Timestamp)
    (unmoved : spelling.ahead? = none) : spelling.instant? readers clock = none := by
  cases spelling with
  | zoned zone => exact Option.map_eq_none_iff.mpr unmoved
  | spaced | joined | plain => cases unmoved

/-- The timestamp that a spelling stands for is as many minutes before the clock as the clock is
ahead. -/
theorem exists_instant? {readers : Readers} (lawful : readers.Lawful) {clock : Timestamp}
    (year : 0 ≤ clock.date.year ∧ clock.date.year ≤ 9999) {spelling : Timestamp.Spelling}
    {minutes : Int} (ahead : spelling.ahead? = some minutes) :
    ∃ instant, spelling.instant? readers clock = some instant ∧
      instant.Precedes clock minutes := by
  cases spelling with
  | zoned zone =>
    obtain ⟨after, before⟩ := zone.minutes?_bounds ahead
    exact ⟨_, Option.map_eq_some_iff.mpr ⟨minutes, ahead, rfl⟩,
      lawful.universal ⟨clock, minutes⟩ year.1 year.2 after before⟩
  | spaced | joined | plain =>
    obtain rfl := Option.some.inj ahead
    exact ⟨clock, rfl, clock.precedes_zero⟩

theorem visible_clock (fields : Fields) :
    ∀ c ∈ (clock fields).toList, Text.isBlank c = false := by
  have colon := visible_mark (show ":" ∈ marks by decide)
  simp only [clock, String.toList_append, List.forall_mem_append]
  exact ⟨⟨⟨⟨visible_padded, colon⟩, visible_padded⟩, colon⟩, visible_padded⟩

/-- No blanks have to be dropped from a spelling. -/
theorem trim_write (fields : Fields) (spelling : Timestamp.Spelling) :
    Text.trim (spelling.write fields) = spelling.write fields := by
  have date := Date.Spelling.visible_write fields
  have letter := visible_mark (show "T" ∈ marks by decide)
  cases spelling with
  | spaced =>
    have dated : Date.Spelling.dashed.write fields ≠ "" := by simp [Date.Spelling.write]
    have timed : clock fields ≠ "" := by simp [clock]
    exact Text.trim_append_blank (Text.trim_of_visible (date .dashed)) dated
      (Text.trim_of_visible (visible_clock fields)) timed
  | joined =>
    apply Text.trim_of_visible
    simp only [write, String.toList_append, List.forall_mem_append]
    exact ⟨⟨date .dashed, letter⟩, visible_clock fields⟩
  | plain =>
    apply Text.trim_of_visible
    simp only [write, String.toList_append, List.forall_mem_append]
    exact ⟨⟨⟨date .plain, visible_padded⟩, visible_padded⟩, visible_padded⟩
  | zoned zone =>
    apply Text.trim_of_visible
    simp only [write, String.toList_append, List.forall_mem_append]
    exact ⟨⟨⟨date .dashed, letter⟩, visible_clock fields⟩, zone.visible_write⟩

section Layouts

variable (fields : Fields)

theorem clock_eq_write : clock fields = Calendar.write fields colonTime := by
  rw [← String.toList_inj, toList_write]
  simp [clock, colonTime, LayoutItem.write]

theorem write_spaced :
    spaced.write fields = Calendar.write fields (dashedDate ++ .blanks :: colonTime) := by
  rw [write_append, write_cons, ← Date.Spelling.write_dashed, ← clock_eq_write,
    ← String.append_assoc]
  rfl

theorem write_joined :
    joined.write fields = Calendar.write fields (dashedDate ++ .literal 'T' :: colonTime) := by
  rw [write_append, write_cons, ← Date.Spelling.write_dashed, ← clock_eq_write,
    ← String.append_assoc]
  rfl

theorem write_plain :
    plain.write fields = Calendar.write fields (plainDate ++ plainTime) := by
  rw [write_append, ← Date.Spelling.write_plain, ← String.toList_inj]
  simp [write, toList_write, plainTime, LayoutItem.write]

theorem write_zoned (zone : Zone) :
    (zoned zone).write fields =
      Calendar.write fields (dashedDate ++ .literal 'T' :: colonTime) ++ zone.write := by
  rw [← write_joined]
  rfl

end Layouts

end Spelling

variable {readers : Readers} {fields : Fields}

theorem ofText?_eq_or (readers : Readers) (text : String) :
    ofText? readers text =
      (readers.timestamp? (dashedDate ++ .blanks :: colonTime) text).or
        ((readers.timestamp? (dashedDate ++ .literal 'T' :: colonTime) text).or
          ((readers.timestamp? (plainDate ++ plainTime) text).or
            ((readers.zoned? text).map readers.universal))) := by
  simp only [ofText?, timestampLayouts, findSome?_cons_eq_or, List.findSome?_nil, Option.or_none,
    Option.orElse_eq_orElse, Option.orElse_eq_or, Option.or_assoc]

theorem ofText?_spaced (lawful : readers.Lawful) (writable : fields.Writable) :
    ofText? readers (Spelling.spaced.write fields) = fields.timestamp? := by
  have letter := lawful.timestamps.letter_of_blanks writable colonTime colonTime ""
  have plain := lawful.timestamps.plain_of_dashed writable plainTime (.blanks :: colonTime) ""
  rw [String.append_empty] at letter plain
  rw [Spelling.write_spaced, ofText?_eq_or, lawful.timestamp?_write writable (by decide), letter,
    plain, lawful.zoned?_write writable (by decide), Option.map_none, Option.or_none,
    Option.or_none, Option.or_none]

theorem ofText?_joined (lawful : readers.Lawful) (writable : fields.Writable) :
    ofText? readers (Spelling.joined.write fields) = fields.timestamp? := by
  have blanks := lawful.timestamps.blanks_of_letter writable colonTime ""
  have plain := lawful.timestamps.plain_of_dashed writable plainTime (.literal 'T' :: colonTime) ""
  rw [String.append_empty] at blanks plain
  rw [Spelling.write_joined, ofText?_eq_or, blanks, plain,
    lawful.timestamp?_write writable (by decide), lawful.zoned?_write writable (by decide),
    Option.map_none, Option.none_or, Option.or_none, Option.or_none]

theorem ofText?_plain (lawful : readers.Lawful) (writable : fields.Writable) :
    ofText? readers (Spelling.plain.write fields) = fields.timestamp? := by
  have dashed (items : List LayoutItem) :=
    lawful.timestamps.dashed_of_plain writable items plainTime ""
  simp only [String.append_empty] at dashed
  rw [Spelling.write_plain, ofText?_eq_or, dashed, dashed,
    lawful.timestamp?_write writable (by decide), lawful.zoned?_write writable (by decide),
    Option.map_none, Option.none_or, Option.none_or, Option.or_none]

/-- The clock of a zone is moved to universal time. -/
theorem ofText?_zoned (lawful : readers.Lawful) (writable : fields.Writable) {zone : Zone}
    (digits : zone.Writable) :
    ofText? readers ((Spelling.zoned zone).write fields) =
      fields.timestamp?.bind fun clock =>
        zone.minutes?.map fun ahead => readers.universal ⟨clock, ahead⟩ := by
  have blanks := lawful.timestamps.blanks_of_letter writable colonTime zone.write
  have joined : readers.timestamp? (dashedDate ++ .literal 'T' :: colonTime)
      (Calendar.write fields (dashedDate ++ .literal 'T' :: colonTime) ++ zone.write) = none :=
    lawful.timestamps.whole writable (by decide) zone.write_ne_empty
  have plain :=
    lawful.timestamps.plain_of_dashed writable plainTime (.literal 'T' :: colonTime) zone.write
  rw [Spelling.write_zoned, ofText?_eq_or, blanks, joined, plain, lawful.zoned writable digits,
    Option.none_or, Option.none_or, Option.none_or]
  cases fields.timestamp? with
  | none => rfl
  | some clock => cases zone.minutes? <;> rfl

/-- A spelling is read as the timestamp that it stands for, if its numbers make a clock. -/
theorem ofText?_write (lawful : readers.Lawful) (writable : fields.Writable)
    {spelling : Timestamp.Spelling} (digits : spelling.Writable) :
    ofText? readers (spelling.write fields) =
      fields.timestamp?.bind (spelling.instant? readers) := by
  have unmoved : fields.timestamp? = fields.timestamp?.bind some := (Option.bind_fun_some _).symm
  cases spelling with
  | spaced => exact (ofText?_spaced lawful writable).trans unmoved
  | joined => exact (ofText?_joined lawful writable).trans unmoved
  | plain => exact (ofText?_plain lawful writable).trans unmoved
  | zoned zone => exact ofText?_zoned lawful writable digits

end Timestamp

end SelectCompiler
