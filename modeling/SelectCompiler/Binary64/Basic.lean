/-!
Numbers of 64 bits with a binary exponent: a sign, eleven bits of exponent, 52 of fraction. A
finite value is a natural significand times a power of two; all arithmetic on it is exact, and
`nearest` is the only place where anything is rounded.
-/

namespace SelectCompiler

structure Binary64 where
  bits : UInt64
  deriving DecidableEq, Repr

namespace Binary64

/-- The bits of positive infinity; every smaller bit pattern without a sign is finite. -/
def infinityBits : Nat := 0x7FF * Nat.pow 2 52

def ofMagnitude (negative : Bool) (magnitude : Nat) : Binary64 :=
  ⟨UInt64.ofNat (if negative then Nat.pow 2 63 + magnitude else magnitude)⟩

def infinity (negative : Bool) : Binary64 := ofMagnitude negative infinityBits

def nan : Binary64 := ofMagnitude false (infinityBits + Nat.pow 2 51)

def zero (negative : Bool) : Binary64 := ofMagnitude negative 0

/-- The bits below the sign. -/
def magnitude (x : Binary64) : Nat := x.bits.toNat % Nat.pow 2 63

def isNegative (x : Binary64) : Bool := decide (Nat.pow 2 63 ≤ x.bits.toNat)

def isInfinite (x : Binary64) : Bool := x.magnitude == infinityBits

def isNaN (x : Binary64) : Bool := decide (infinityBits < x.magnitude)

def isZero (x : Binary64) : Bool := x.magnitude == 0

/-- A natural number of units, each a power of two. -/
structure Scaled where
  significand : Nat
  exponent : Int
  deriving DecidableEq, Repr

/-- The absolute value of a finite number. -/
def scaled (x : Binary64) : Scaled :=
  let field : Nat := x.magnitude / Nat.pow 2 52
  let fraction := x.magnitude % Nat.pow 2 52
  if field = 0 then ⟨fraction, -1074⟩ else ⟨Nat.pow 2 52 + fraction, field - 1075⟩

/-- A scaled value as a quotient of naturals. -/
def Scaled.ratio (value : Scaled) : Nat × Nat :=
  (value.significand * Nat.pow 2 value.exponent.toNat, Nat.pow 2 (-value.exponent).toNat)

/-- A quotient rounded to the nearest natural number, a tie going to the even neighbour. -/
def roundedQuotient (numerator denominator : Nat) : Nat :=
  let whole := numerator / denominator
  match compare (2 * (numerator % denominator)) denominator with
  | .lt => whole
  | .gt => whole + 1
  | .eq => whole + whole % 2

/-- The binary exponent of the leading digit of a positive quotient. -/
def leadingExponent (numerator denominator : Nat) : Int :=
  let estimate : Int := numerator.log2 - denominator.log2
  if denominator * Nat.pow 2 estimate.toNat ≤ numerator * Nat.pow 2 (-estimate).toNat then estimate
  else estimate - 1

/-- The number nearest to a quotient, a tie going to the even significand and everything beyond
the largest finite number to infinity. -/
def nearest (negative : Bool) (numerator denominator : Nat) : Binary64 :=
  if numerator = 0 then zero negative
  else
    let unit := max (leadingExponent numerator denominator - 52) (-1074)
    let significand :=
      roundedQuotient (numerator * Nat.pow 2 (-unit).toNat) (denominator * Nat.pow 2 unit.toNat)
    ofMagnitude negative (min ((unit + 1074).toNat * Nat.pow 2 52 + significand) infinityBits)

/-- The number nearest to an integer. -/
def ofInt (n : Int) : Binary64 := nearest (decide (n < 0)) n.natAbs 1

/-- The same absolute value with the given sign. -/
def withSign (negative : Bool) (x : Binary64) : Binary64 := ofMagnitude negative x.magnitude

/-- The product of the absolute values of two finite numbers. -/
def product (x y : Binary64) : Binary64 :=
  nearest false (x.scaled.ratio.1 * y.scaled.ratio.1) (x.scaled.ratio.2 * y.scaled.ratio.2)

/-- The quotient of the absolute values of two finite numbers, the second not zero. -/
def quotient (x y : Binary64) : Binary64 :=
  nearest false (x.scaled.ratio.1 * y.scaled.ratio.2) (x.scaled.ratio.2 * y.scaled.ratio.1)

/-- The absolute value rounded to a natural number, a half going up. -/
def roundedMagnitude (x : Binary64) : Nat :=
  (2 * x.scaled.ratio.1 + x.scaled.ratio.2) / (2 * x.scaled.ratio.2)

end Binary64

end SelectCompiler
