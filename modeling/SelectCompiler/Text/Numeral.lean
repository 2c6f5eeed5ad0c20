/-!
Numerals of bounded size. A decimal numeral is a non-empty run of ASCII digits; leading zeros
count for nothing, and a value outside the range asked for is no numeral at all.
-/

namespace SelectCompiler.Text

/-- The number of values of a 64-bit word; placeholder numbers and offsets stay below it. -/
def wordSize : Nat := Nat.pow 2 64

/-- One past the largest value of a signed 64-bit word; its negation is the smallest. -/
def signedLimit : Nat := Nat.pow 2 63

/-- The value of a run of ASCII digits. -/
def digitsValue (digits : List Char) : Nat :=
  Nat.ofDigitChars 10 digits 0

/-- The number written by `digits`, when they are digits and it fits a 64-bit word. -/
def word? (digits : List Char) : Option Nat :=
  if digits ≠ [] ∧ digits.all Char.isDigit ∧ digitsValue digits < wordSize then
    some (digitsValue digits)
  else
    none

/-- An unsigned 64-bit number with an optional plus sign. -/
def unsigned? (text : String) : Option Nat :=
  match text.toList with
  | '+' :: digits => word? digits
  | digits => word? digits

/-- A signed 64-bit number with an optional sign. -/
def signed? (text : String) : Option Int :=
  match text.toList with
  | '-' :: digits => (word? digits).bind fun n => if n ≤ signedLimit then some (-n) else none
  | '+' :: digits => nonnegative digits
  | digits => nonnegative digits
where
  nonnegative (digits : List Char) : Option Int :=
    (word? digits).bind fun n => if n < signedLimit then some n else none

/-- The value of a hexadecimal digit. -/
def hexDigit? (c : Char) : Option Nat :=
  if c.isDigit then some (c.toNat - '0'.toNat)
  else if 'a' ≤ c.toLower ∧ c.toLower ≤ 'f' then some (c.toLower.toNat - 'a'.toNat + 10)
  else none

/-- The value of digits of a base, which is at most sixteen; there has to be one. -/
def inBase? (base : Nat) (digits : List Char) : Option Nat := do
  let values ← digits.mapM hexDigit?
  if values.isEmpty || values.any (base ≤ ·) then none
  else return values.foldl (fun value digit => value * base + digit) 0

/-- The value of four hexadecimal digits. -/
def hexUnit? (a b c d : Char) : Option Nat := inBase? 16 [a, b, c, d]

/-- The character of a code point, if it is one. -/
def character? (point : Nat) : Option Char :=
  if point.isValidChar then some (Char.ofNat point) else none

/-- The decimal text of an integer, with a minus sign when it is negative. -/
def decimal : Int → String
  | .ofNat n => n.repr
  | .negSucc n => "-" ++ (n + 1).repr

end SelectCompiler.Text
