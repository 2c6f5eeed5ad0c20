import SelectCompiler.Binary64.Shortest
import SelectCompiler.Text.Numeral

/-!
Numbers of 64 bits read from decimal text. `ofDecimal` rounds once and is right for every
decimal; `powerScaled` is the quick way, a word times a power of ten with a rounding at each step.
-/

namespace SelectCompiler.Binary64

/-- The number nearest to a decimal. Decimals far outside the range are decided by their size, so
that no huge power is ever computed. -/
def ofDecimal (negative : Bool) (d : Decimal) : Binary64 :=
  if d.digits = 0 then zero negative
  else if 310 < digitCount d.digits + d.exponent then infinity negative
  else if digitCount d.digits + d.exponent < -330 then zero negative
  else nearest negative d.ratio.1 d.ratio.2

/-- An exponent mark, an optional sign and at least one digit; without the mark, zero. -/
def exponentPart? : List Char → Option Int
  | [] => some 0
  | mark :: rest =>
    if mark.toLower ≠ 'e' then none
    else
      match rest with
      | '-' :: digits => (digits? digits).map fun n => -(n : Int)
      | '+' :: digits => (digits? digits).map Int.ofNat
      | digits => (digits? digits).map Int.ofNat
where
  digits? (digits : List Char) : Option Nat :=
    if digits ≠ [] ∧ digits.all Char.isDigit then some (Text.digitsValue digits) else none

/-- Digits with an optional point among or around them and an optional exponent. -/
def decimal? (chars : List Char) : Option Decimal :=
  let whole := chars.takeWhile Char.isDigit
  let afterWhole := chars.dropWhile Char.isDigit
  let (fraction, rest) :=
    match afterWhole with
    | '.' :: more => (more.takeWhile Char.isDigit, more.dropWhile Char.isDigit)
    | more => ([], more)
  if whole.isEmpty && fraction.isEmpty then none
  else
    (exponentPart? rest).map fun exponent =>
      ⟨Text.digitsValue (whole ++ fraction), exponent - fraction.length⟩

/-- A number without its sign; the words for infinity and for no number are read in any case. -/
def unsignedText? (negative : Bool) (chars : List Char) : Option Binary64 :=
  match String.ofList (chars.map Char.toLower) with
  | "inf" | "infinity" => some (infinity negative)
  | "nan" => some nan
  | _ => (decimal? chars).map (ofDecimal negative)

/-- The number that a whole text writes, with an optional sign. -/
def ofText? (text : String) : Option Binary64 :=
  match text.toList with
  | '-' :: chars => unsignedText? true chars
  | '+' :: chars => unsignedText? false chars
  | chars => unsignedText? false chars

/-- The number nearest to a power of ten. -/
def powerOfTen (n : Nat) : Binary64 := nearest false (Nat.pow 10 n) 1

/-- The largest power of ten below infinity. -/
def topPower : Nat := 308

/-- A number scaled by a power of ten, one rounded step for each power up to the largest; nothing
when the result is beyond the largest finite number. -/
def powerScaled (x : Binary64) (exponent : Int) : Option Binary64 :=
  if exponent.natAbs ≤ topPower then
    if 0 ≤ exponent then
      let scaled := product x (powerOfTen exponent.natAbs)
      if scaled.isInfinite then none else some scaled
    else some (quotient x (powerOfTen exponent.natAbs))
  else if x.isZero then some x
  else if 0 ≤ exponent then none
  else powerScaled (quotient x (powerOfTen topPower)) (exponent + topPower)
termination_by exponent.natAbs
decreasing_by
  rename_i outside _ _
  simp only [topPower] at *
  omega

end SelectCompiler.Binary64
