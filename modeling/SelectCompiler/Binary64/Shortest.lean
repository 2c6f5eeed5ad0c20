import SelectCompiler.Binary64.Basic

/-!
The fewest decimal digits that identify a finite number. A decimal identifies a number when it
lies among the reals that round to it; of the shortest such decimals the nearest is taken.
-/

namespace SelectCompiler.Binary64

/-- Which of two equally near decimals is taken. -/
inductive Tie where
  | toEven
  | up
  deriving DecidableEq, Repr

/-- A natural number of units, each a power of ten. -/
structure Decimal where
  digits : Nat
  exponent : Int
  deriving DecidableEq, Repr

/-- The decimal as a quotient of naturals. -/
def Decimal.ratio (d : Decimal) : Nat × Nat :=
  (d.digits * Nat.pow 10 d.exponent.toNat, Nat.pow 10 (-d.exponent).toNat)

/-- Compare two quotients of naturals with positive denominators. -/
def compareRatio (left right : Nat × Nat) : Ordering :=
  compare (left.1 * right.2) (right.1 * left.2)

/-- Whether the decimal lies among the reals that round to `x`. The gap below a power of two is
half the gap above it, and the ends belong to the numbers with an even significand. -/
def identifies (x : Binary64) (d : Decimal) : Bool :=
  let ⟨significand, exponent⟩ := x.scaled
  let narrow := decide (significand = Nat.pow 2 52) && decide (-1074 < exponent)
  let low := (Scaled.mk (4 * significand - if narrow then 1 else 2) (exponent - 2)).ratio
  let high := (Scaled.mk (4 * significand + 2) (exponent - 2)).ratio
  match compareRatio low d.ratio, compareRatio d.ratio high with
  | .lt, .lt => true
  | .eq, .lt | .lt, .eq => significand % 2 == 0
  | _, _ => false

/-- How many decimal digits a natural number has; zero has none. -/
def digitCount (n : Nat) : Nat :=
  if n = 0 then 0 else digitCount (n / 10) + 1

/-- The least power of ten above a positive quotient. -/
def decimalScale (ratio : Nat × Nat) : Int :=
  if ratio.2 ≤ ratio.1 then digitCount (ratio.1 / ratio.2)
  else 1 - digitCount ((ratio.2 - 1) / ratio.1)

/-- The point of the decimal grid with the given unit that identifies `x`, if there is one: of the
two neighbours of `x` the nearer, and on a tie as told. -/
def onGrid? (tie : Tie) (x : Binary64) (unit : Int) : Option Decimal :=
  let (numerator, denominator) := x.scaled.ratio
  let top := numerator * Nat.pow 10 (-unit).toNat
  let bottom := denominator * Nat.pow 10 unit.toNat
  let below : Decimal := ⟨top / bottom, unit⟩
  let above : Decimal := ⟨top / bottom + 1, unit⟩
  match identifies x below, identifies x above with
  | false, false => none
  | true, false => some below
  | false, true => some above
  | true, true =>
    match compare (2 * (top % bottom)) bottom, tie with
    | .lt, _ => some below
    | .gt, _ => some above
    | .eq, .up => some above
    | .eq, .toEven => some (if below.digits % 2 = 0 then below else above)

/-- Trailing zeros moved into the exponent. -/
def Decimal.stripped (d : Decimal) : Decimal :=
  if d.digits ≠ 0 ∧ d.digits % 10 = 0 then
    Decimal.stripped ⟨d.digits / 10, d.exponent + 1⟩
  else d
termination_by d.digits
decreasing_by omega

/-- A finite value written out in full. -/
def exactDecimal (x : Binary64) : Decimal :=
  let ⟨significand, exponent⟩ := x.scaled
  if 0 ≤ exponent then ⟨significand * Nat.pow 2 exponent.toNat, 0⟩
  else ⟨significand * Nat.pow 5 (-exponent).toNat, exponent⟩

/-- The fewest digits that identify a finite positive value. Seventeen always do; the value in
full stands behind them so that nothing rests on that. -/
def shortest (tie : Tie) (x : Binary64) : Decimal :=
  let scale := decimalScale x.scaled.ratio
  ((List.range 17).findSome? fun (n : Nat) => onGrid? tie x (scale - (n + 1))).getD (exactDecimal x)
    |>.stripped

end SelectCompiler.Binary64
