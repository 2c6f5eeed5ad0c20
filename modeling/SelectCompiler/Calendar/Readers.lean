import SelectCompiler.Calendar.Basic

/-!
What dates and timestamps are read with. The functions that read a whole text by a layout, or in the
internet form, are left open: they are handed to whoever binds a value. The layouts that are tried,
and the order in which they are, stand here.
-/

namespace SelectCompiler

namespace Calendar

/-- The numbers that a text gives. -/
structure Fields where
  year : Int := 0
  month : Nat := 0
  day : Nat := 0
  hour : Nat := 0
  minute : Nat := 0
  second : Nat := 0
  nanosecond : Nat := 0

def Fields.date? (fields : Fields) : Option Date :=
  Date.ofParts? fields.year fields.month fields.day

def Fields.timestamp? (fields : Fields) : Option Timestamp := do
  let date ← fields.date?
  let time ← TimeOfDay.ofParts? fields.hour fields.minute fields.second fields.nanosecond
  return ⟨date, time⟩

/-- What a layout expects next: a number, a character as it is, or blanks. -/
inductive LayoutItem where
  | year
  | month
  | day
  | hour
  | minute
  | second
  | literal (c : Char)
  | blanks
  deriving DecidableEq

def dashedDate : List LayoutItem := [.year, .literal '-', .month, .literal '-', .day]

def plainDate : List LayoutItem := [.year, .month, .day]

def colonTime : List LayoutItem := [.hour, .literal ':', .minute, .literal ':', .second]

def plainTime : List LayoutItem := [.hour, .minute, .second]

/-- The layouts of a date, in the order in which they are tried. -/
def dateLayouts : List (List LayoutItem) := [dashedDate, plainDate]

/-- The layouts of a timestamp, in the order in which they are tried. -/
def timestampLayouts : List (List LayoutItem) :=
  [dashedDate ++ .blanks :: colonTime, dashedDate ++ .literal 'T' :: colonTime,
    plainDate ++ plainTime]

/-- A timestamp by the clock of some place, which is ahead of universal time by so many minutes. -/
structure Zoned where
  clock : Timestamp
  ahead : Int

/-- The functions that dates and timestamps are read with: by a layout, and in the internet form,
which says how far the clock is ahead of universal time. -/
structure Readers where
  date? : List LayoutItem → String → Option Date
  timestamp? : List LayoutItem → String → Option Timestamp
  zoned? : String → Option Zoned
  universal : Zoned → Timestamp

end Calendar

/-- The date that a whole text writes by the first layout that fits. -/
def Date.ofText? (readers : Calendar.Readers) (text : String) : Option Date :=
  Calendar.dateLayouts.findSome? fun layout => readers.date? layout text

/-- The timestamp that a whole text writes by the first layout that fits, or else in the internet
form, as universal time. -/
def Timestamp.ofText? (readers : Calendar.Readers) (text : String) : Option Timestamp :=
  (Calendar.timestampLayouts.findSome? fun layout => readers.timestamp? layout text)
    <|> (readers.zoned? text).map readers.universal

end SelectCompiler
