import SelectCompiler.Calendar.Reading

/-!
Dates and times in TOML. Settings take them as text, in one spelling: a `T` before the time, no
zeros at the end of a fraction, and a capital `Z`.
-/

namespace SelectCompiler.Toml

open Calendar (fixed? oneOf? fraction? padded)

def date? (chars : List Char) : Option (Date × List Char) := do
  let (year, chars) ← fixed? 4 chars
  let chars ← oneOf? ['-'] chars
  let (month, chars) ← fixed? 2 chars
  let chars ← oneOf? ['-'] chars
  let (day, chars) ← fixed? 2 chars
  return (← Date.ofParts? year month day, chars)

def time? (chars : List Char) : Option (TimeOfDay × List Char) := do
  let (hour, chars) ← fixed? 2 chars
  let chars ← oneOf? [':'] chars
  let (minute, chars) ← fixed? 2 chars
  let chars ← oneOf? [':'] chars
  let (second, chars) ← fixed? 2 chars
  let (nanosecond, chars) ← fraction? chars
  return (← TimeOfDay.ofParts? hour minute second nanosecond, chars)

/-- The digits behind the second without the zeros at their end. -/
def fractionText (nanosecond : Nat) : String :=
  if nanosecond = 0 then ""
  else
    "." ++ String.ofList ((padded 9 nanosecond).toList.reverse.dropWhile (· == '0')).reverse

def timeText (time : TimeOfDay) : String :=
  padded 2 time.hour ++ ":" ++ padded 2 time.minute ++ ":" ++ padded 2 time.second
    ++ fractionText time.nanosecond

/-- The text of an offset from universal time; there may be none. -/
def offsetText? (chars : List Char) : Option (String × List Char) :=
  match chars with
  | 'Z' :: rest | 'z' :: rest => some ("Z", rest)
  | '+' :: rest => magnitude? "+" rest
  | '-' :: rest => magnitude? "-" rest
  | chars => some ("", chars)
where
  magnitude? (sign : String) (chars : List Char) : Option (String × List Char) := do
    let (hours, chars) ← fixed? 2 chars
    let chars ← oneOf? [':'] chars
    let (minutes, chars) ← fixed? 2 chars
    if 24 ≤ hours ∨ 60 ≤ minutes then none
    else
      let sign := if hours = 0 ∧ minutes = 0 then "+" else sign
      some (sign ++ padded 2 hours ++ ":" ++ padded 2 minutes, chars)

/-- Whether a time follows: two digits and a colon. -/
def startsTime (chars : List Char) : Bool :=
  ((fixed? 2 chars).bind fun (_, rest) => oneOf? [':'] rest).isSome

/-- The text of a date, a time, or a date with a time and perhaps an offset. -/
def moment? (chars : List Char) : Option (String × List Char) :=
  match date? chars with
  | none => (time? chars).map fun (time, rest) => (timeText time, rest)
  | some (date, rest) =>
    match (oneOf? ['T', 't', ' '] rest).filter startsTime with
    | none => some (date.text, rest)
    | some chars => do
      let (time, chars) ← time? chars
      let (offset, chars) ← offsetText? chars
      return (date.text ++ "T" ++ timeText time ++ offset, chars)

end SelectCompiler.Toml
