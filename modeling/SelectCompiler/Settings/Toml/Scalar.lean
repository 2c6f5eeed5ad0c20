import SelectCompiler.Settings.Toml.Moment
import SelectCompiler.Settings.Toml.Quoted
import SelectCompiler.Settings.Value

/-!
Values in TOML that hold no other values: texts, numbers, truth values, dates and times.
-/

namespace SelectCompiler.Toml

/-- Digits in groups that are parted by single underscores. -/
def grouped? (isDigit : Char → Bool) (chars : List Char) : Option (List Char) :=
  let groups := chars.splitOnP (· == '_')
  if groups.all fun group => !group.isEmpty && group.all isDigit then some groups.flatten
  else none

def decimals? (chars : List Char) : Option (List Char) := grouped? Char.isDigit chars

/-- Grouped digits that do not start with a zero, or a zero alone. -/
def whole? (chars : List Char) : Option (List Char) :=
  (decimals? chars).filter fun digits => digits == ['0'] || digits.head? != some '0'

/-- The value of grouped digits of a base. -/
def inBase? (base : Nat) (chars : List Char) : Option Nat :=
  (grouped? (fun c => (Text.hexDigit? c).isSome) chars).bind (Text.inBase? base)

/-- The value of digits behind the mark of their base. -/
def based? : List Char → Option Nat
  | '0' :: 'x' :: digits => inBase? 16 digits
  | '0' :: 'o' :: digits => inBase? 8 digits
  | '0' :: 'b' :: digits => inBase? 2 digits
  | _ => none

/-- A number with a fraction, an exponent or both, with the underscores taken out. -/
def fractional? (chars : List Char) : Option (List Char) :=
  let isMark (c : Char) : Bool := c == 'e' || c == 'E'
  let mantissa := chars.takeWhile fun c => !isMark c
  let exponent := chars.dropWhile fun c => !isMark c
  let whole := mantissa.takeWhile (· != '.')
  let fraction := mantissa.dropWhile (· != '.')
  if fraction.isEmpty && exponent.isEmpty then none
  else do
    let whole ← whole? whole
    let fraction ←
      match fraction with
      | [] => some []
      | point :: digits => (decimals? digits).map (point :: ·)
    let exponent ←
      match exponent with
      | [] => some []
      | mark :: '-' :: digits => (decimals? digits).map fun digits => mark :: '-' :: digits
      | mark :: '+' :: digits => (decimals? digits).map (mark :: ·)
      | mark :: digits => (decimals? digits).map (mark :: ·)
    return whole ++ fraction ++ exponent

/-- A decimal that is not infinite; below zero it may be. -/
def real? (negative : Bool) (digits : List Char) : Option SettingValue :=
  ((Binary64.unsignedText? negative digits).filter fun x => negative || !x.isInfinite).map .real

/-- A number without its sign. -/
def unsigned? (negative : Bool) (chars : List Char) : Option SettingValue :=
  match String.ofList chars with
  | "inf" => some (.real (.infinity negative))
  | "nan" => some (.real .nan)
  | _ =>
    match whole? chars with
    | some digits =>
      let n : Int := Text.digitsValue digits
      let n := if negative then -n else n
      if -Text.signedLimit ≤ n ∧ n < Text.signedLimit then some (.integer n) else none
    | none => (fractional? chars).bind (real? negative)

/-- A truth value or a number; only decimal numbers have signs. -/
def word? (chars : List Char) : Option SettingValue :=
  match String.ofList chars with
  | "true" => some (.bool true)
  | "false" => some (.bool false)
  | _ =>
    match based? chars with
    | some n => if n < Text.signedLimit then some (.integer n) else none
    | none =>
      match chars with
      | '-' :: rest => unsigned? true rest
      | '+' :: rest => unsigned? false rest
      | chars => unsigned? false chars

/-- The characters that truth values and numbers are made of. -/
def isWordChar (c : Char) : Bool :=
  c.isAlphanum || c == '_' || c == '+' || c == '-' || c == '.'

/-- A value that holds no other values. -/
def scalar? (chars : List Char) : Option (Taken SettingValue chars) :=
  match quoted? chars with
  | some text => some (text.map fun content => .text (String.ofList content))
  | none =>
    Taken.ofRead? (((moment? chars).map fun (text, rest) => (.text text, rest))
      <|> (word? (chars.takeWhile isWordChar)).map fun value =>
        (value, chars.dropWhile isWordChar))

end SelectCompiler.Toml
