import DeskCalc.Binary64

/-! Decimal numbers, a coefficient times a power of ten, beside binary ones: the binary number
nearest to a decimal, and the shortest decimal that reads back as a given binary number. -/

namespace DeskCalc

structure Decimal where
  coefficient : Nat
  exponent : Int
  deriving DecidableEq, Repr

namespace Decimal

open Binary64

/-- The numerator of the number as a ratio: the coefficient with the powers of ten above one. -/
def num (d : Decimal) : Nat := d.coefficient * 10 ^ d.exponent.toNat

/-- The denominator of the number as a ratio: the powers of ten below one. -/
def den (d : Decimal) : Nat := 10 ^ (-d.exponent).toNat

/-- The binary number nearest to a decimal.  A number past `10 ^ 400` is infinite and one below
`10 ^ (-400)` is zero before any power of its exponent is taken. -/
def toFloat (negative : Bool) (d : Decimal) : Float :=
  if d.coefficient = 0 then zero negative
  else if 400 < d.exponent then infinity negative
  else if d.exponent < -(400 + (d.coefficient.log2 : Int)) then zero negative
  else nearest negative d.num d.den

/-! ### The shortest decimal

The real numbers that round to a magnitude form an interval, which holds its ends when the mantissa
is even.  The grids of multiples of powers of ten are tried from the coarsest on.  A grid with a point
in the interval has one next to the magnitude itself, so each grid asks about two points only; of two
hits the nearer is taken, and the even one of a tie. -/

/-- The reals that round to a magnitude, in quarters of a quantum. -/
structure Interval where
  low : Nat
  high : Nat
  closed : Bool

/-- The interval of a magnitude reaches half way to its neighbours.  The neighbour below the least
mantissa of a binade is half as far as the one above. -/
def Interval.around (a : Magnitude) : Interval where
  low := 4 * a.quanta - (if a.mantissa = 2 ^ 52 && 0 < a.shift then 1 else 2) * 2 ^ a.shift
  high := 4 * a.quanta + 2 * 2 ^ a.shift
  closed := a.mantissa % 2 == 0

def Interval.contains (i : Interval) (d : Decimal) : Bool :=
  let x := d.num * 2 ^ 1076
  if i.closed then i.low * d.den ≤ x && x ≤ i.high * d.den
  else i.low * d.den < x && x < i.high * d.den

/-- The point of the grid `10 ^ exponent` that stands for a magnitude, if one lies in its
interval. -/
def pointOn (a : Magnitude) (exponent : Int) : Option Decimal :=
  let interval := Interval.around a
  let value := a.quanta * 10 ^ (-exponent).toNat
  let step := 10 ^ exponent.toNat * 2 ^ 1074
  let below : Decimal := ⟨value / step, exponent⟩
  let above : Decimal := ⟨value / step + 1, exponent⟩
  match interval.contains below, interval.contains above with
  | false, false => none
  | true, false => some below
  | false, true => some above
  | true, true =>
    let half := (2 * below.coefficient + 1) * step
    if 2 * value < half || (2 * value = half && below.coefficient % 2 = 0) then some below
    else some above

/-- The first point found on `count` grids from `10 ^ exponent` down. -/
def firstPoint (a : Magnitude) : Nat → Int → Option Decimal
  | 0, _ => none
  | count + 1, exponent =>
    match pointOn a exponent with
    | some d => some d
    | none => firstPoint a count (exponent - 1)

/-- The number of digits before the decimal point. -/
def wholeDigits (a : Magnitude) : Nat := (Nat.toDigits 10 (a.quanta / 2 ^ 1074)).length

/-- The shortest decimal of a magnitude.  The search ends with the grid `10 ^ (-324)`, which is finer
than the least interval. -/
def shortest (a : Magnitude) : Decimal :=
  (firstPoint a (wholeDigits a + 325) (wholeDigits a)).getD ⟨0, 0⟩

end Decimal

end DeskCalc
