import SelectCompiler.Binary64.Shortest
import SelectCompiler.Text.Numeral

/-!
How a number of 64 bits is laid out as text. A `Layout` holds the decisions of one output format;
the digits come from `shortest`.
-/

namespace SelectCompiler.Binary64

/-- The decisions of a format: the exponents of the leading digit that are written positionally,
whether an integral value keeps a point and a zero, whether a positive exponent has a sign, and
which way a tie between two shortest decimals goes. -/
structure Layout where
  plainFrom : Int
  plainBelow : Int
  pointZero : Bool
  exponentSign : Bool
  tie : Tie

/-- Digits with the point set `places` digits from their left end. -/
def positional (pointZero : Bool) (digits : String) (places : Int) : String :=
  if places ≤ 0 then
    "0." ++ String.ofList (List.replicate (-places).toNat '0') ++ digits
  else if places.toNat < digits.length then
    String.ofList (digits.toList.take places.toNat) ++ "."
      ++ String.ofList (digits.toList.drop places.toNat)
  else
    digits ++ String.ofList (List.replicate (places.toNat - digits.length) '0')
      ++ if pointZero then ".0" else ""

/-- One digit before the point, the rest behind it, and the exponent. -/
def scientific (exponentSign : Bool) (digits : String) (exponent : Int) : String :=
  let fraction := String.ofList (digits.toList.drop 1)
  String.ofList (digits.toList.take 1) ++ (if fraction.isEmpty then "" else "." ++ fraction)
    ++ "e" ++ (if exponentSign && decide (0 ≤ exponent) then "+" else "") ++ Text.decimal exponent

/-- A positive finite value. -/
def Layout.positive (layout : Layout) (x : Binary64) : String :=
  let d := shortest layout.tie x
  let digits := d.digits.repr
  let exponent := d.exponent + digits.length - 1
  if layout.plainFrom ≤ exponent ∧ exponent < layout.plainBelow then
    positional layout.pointZero digits (exponent + 1)
  else
    scientific layout.exponentSign digits exponent

def Layout.write (layout : Layout) (x : Binary64) : String :=
  if x.isNaN then "NaN"
  else
    (if x.isNegative then "-" else "") ++
      if x.isInfinite then "inf"
      else if x.isZero then (if layout.pointZero then "0.0" else "0")
      else layout.positive x

/-- The sixteen hexadecimal digits of the bits. -/
def hexadecimal (x : Binary64) : String :=
  let digits := Nat.toDigits 16 x.bits.toNat
  String.ofList (List.replicate (16 - digits.length) '0' ++ digits)

end SelectCompiler.Binary64
