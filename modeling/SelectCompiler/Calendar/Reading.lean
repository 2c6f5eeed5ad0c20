import SelectCompiler.Calendar.Readers
import SelectCompiler.Text.Blank

/-!
Readers of dates and timestamps. Numbers that a layout lists may have blanks in front and fewer
digits than usual; the internet form has fixed widths and an offset from universal time, which is
reckoned with by moving over to the day before or the day after.
-/

namespace SelectCompiler.Calendar

/-- Up to `width` digits, at least one. -/
def number? (width : Nat) (chars : List Char) : Option (Nat × List Char) :=
  let digits := (chars.takeWhile Char.isDigit).take width
  if digits.isEmpty then none else some (Text.digitsValue digits, chars.drop digits.length)

/-- A year: up to four digits, or a sign and any number of them. -/
def year? (chars : List Char) : Option (Int × List Char) :=
  match chars with
  | '-' :: rest => (number? rest.length rest).map fun (n, rest) => (-(n : Int), rest)
  | '+' :: rest => (number? rest.length rest).map fun (n, rest) => ((n : Int), rest)
  | chars => (number? 4 chars).map fun (n, rest) => ((n : Int), rest)

/-- Read one item of a layout. -/
def readItem? (item : LayoutItem) (fields : Fields) (chars : List Char) :
    Option (Fields × List Char) :=
  let unblanked := chars.dropWhile Text.isBlank
  match item with
  | .year => (year? unblanked).map fun (n, rest) => ({ fields with year := n }, rest)
  | .month => (number? 2 unblanked).map fun (n, rest) => ({ fields with month := n }, rest)
  | .day => (number? 2 unblanked).map fun (n, rest) => ({ fields with day := n }, rest)
  | .hour => (number? 2 unblanked).map fun (n, rest) => ({ fields with hour := n }, rest)
  | .minute => (number? 2 unblanked).map fun (n, rest) => ({ fields with minute := n }, rest)
  | .second => (number? 2 unblanked).map fun (n, rest) => ({ fields with second := n }, rest)
  | .literal c =>
    match chars with
    | first :: rest => if first = c then some (fields, rest) else none
    | [] => none
  | .blanks => some (fields, unblanked)

/-- Read a whole text by a layout. -/
def readLayout? (fields : Fields) : List LayoutItem → List Char → Option Fields
  | [], [] => some fields
  | [], _ :: _ => none
  | item :: items, chars =>
    (readItem? item fields chars).bind fun (fields, rest) => readLayout? fields items rest

/-- Exactly `width` digits. -/
def fixed? (width : Nat) (chars : List Char) : Option (Nat × List Char) :=
  let digits := chars.take width
  if digits.length = width ∧ digits.all Char.isDigit then
    some (Text.digitsValue digits, chars.drop width)
  else none

/-- One of the given characters. -/
def oneOf? (accepted : List Char) (chars : List Char) : Option (List Char) :=
  match chars with
  | c :: rest => if accepted.contains c then some rest else none
  | [] => none

/-- A point and at least one digit, cut to nanoseconds; nothing without a point. -/
def fraction? (chars : List Char) : Option (Nat × List Char) :=
  match chars with
  | '.' :: rest =>
    let digits := rest.takeWhile Char.isDigit
    if digits.isEmpty then none
    else
      let kept := digits.take 9
      some (Text.digitsValue (kept ++ List.replicate (9 - kept.length) '0'),
        rest.dropWhile Char.isDigit)
  | chars => some (0, chars)

/-- The minutes by which local time is ahead of universal time, and nothing behind them. -/
def offset? (chars : List Char) : Option Int :=
  match chars with
  | ['Z'] | ['z'] => some 0
  | '+' :: rest => (magnitude? rest).map fun n => (n : Int)
  | '-' :: rest => (magnitude? rest).map fun n => -(n : Int)
  | '\u2212' :: rest => (magnitude? rest).map fun n => -(n : Int)
  | _ => none
where
  magnitude? (chars : List Char) : Option Nat := do
    let (hours, chars) ← fixed? 2 chars
    let chars ← oneOf? [':'] chars
    let (minutes, chars) ← fixed? 2 chars
    if chars.isEmpty ∧ hours < 24 ∧ minutes < 60 then some (hours * 60 + minutes) else none

/-- A date in the internet form and what is behind it. -/
def internetDate? (chars : List Char) : Option (Fields × List Char) := do
  let (year, chars) ← fixed? 4 chars
  let chars ← oneOf? ['-'] chars
  let (month, chars) ← fixed? 2 chars
  let chars ← oneOf? ['-'] chars
  let (day, chars) ← fixed? 2 chars
  return ({ year, month, day }, chars)

/-- A time of day in the internet form, put beside a date, and what is behind it. -/
def internetTime? (date : Fields) (chars : List Char) : Option (Fields × List Char) := do
  let (hour, chars) ← fixed? 2 chars
  let chars ← oneOf? [':'] chars
  let (minute, chars) ← fixed? 2 chars
  let chars ← oneOf? [':'] chars
  let (second, chars) ← fixed? 2 chars
  let (nanosecond, chars) ← fraction? chars
  return ({ date with hour, minute, second, nanosecond }, chars)

/-- A timestamp in the internet form. -/
def internetForm? (chars : List Char) : Option Zoned := do
  let (date, chars) ← internetDate? chars
  let chars ← oneOf? ['T', 't', ' '] chars
  let (fields, chars) ← internetTime? date chars
  let ahead ← offset? chars
  return ⟨← fields.timestamp?, ahead⟩

end SelectCompiler.Calendar

namespace SelectCompiler

namespace Date

/-- The day after, unless that is out of range. -/
def next? (date : Date) : Option Date :=
  if date.day < Calendar.daysIn date.year date.month then
    ofParts? date.year date.month (date.day + 1)
  else if date.month < 12 then ofParts? date.year (date.month + 1) 1
  else ofParts? (date.year + 1) 1 1

/-- The day before, unless that is out of range. -/
def previous? (date : Date) : Option Date :=
  if 1 < date.day then ofParts? date.year date.month (date.day - 1)
  else if 1 < date.month then
    ofParts? date.year (date.month - 1) (Calendar.daysIn date.year (date.month - 1))
  else ofParts? (date.year - 1) 12 31

end Date

/-- The same second of the given minute of the day. -/
def TimeOfDay.atMinute (time : TimeOfDay) (minutes : Nat) (inDay : minutes < 1440) : TimeOfDay :=
  { time with
    hour := minutes / 60
    minute := minutes % 60
    hour_lt := by omega
    minute_lt := by omega }

/-- The timestamp that is earlier by a number of minutes, which lie within a day either way. -/
def Timestamp.earlier? (timestamp : Timestamp) (minutes : Int) : Option Timestamp :=
  let shifted := (timestamp.time.minutes : Int) - minutes
  let date? :=
    if shifted < 0 then timestamp.date.previous?
    else if 1440 ≤ shifted then timestamp.date.next?
    else some timestamp.date
  date?.map fun date =>
    ⟨date, timestamp.time.atMinute (shifted % 1440).toNat (by omega)⟩

/-- The readers of the program. Where universal time is out of range the clock counts. -/
def Calendar.readers : Calendar.Readers where
  date? layout text := (readLayout? {} layout text.toList).bind Fields.date?
  timestamp? layout text := (readLayout? {} layout text.toList).bind Fields.timestamp?
  zoned? text := internetForm? text.toList
  universal zoned := (zoned.clock.earlier? zoned.ahead).getD zoned.clock

end SelectCompiler
