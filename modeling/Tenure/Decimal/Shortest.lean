import Tenure.Decimal.Binary

/-!
# Shortest decimals

The decimal that stands for a float is the one with the fewest digits among
those that lie closer to it than to any other float, and of these the nearest.
The candidates with a given number of digits are the two neighbours of the float
on the grid of that many digits.
-/

set_option autoImplicit false

namespace Tenure.Decimal

/-- A positive decimal, `digits * 10 ^ exponent`. -/
structure ShortDecimal where
  digits : Nat
  exponent : Int
deriving DecidableEq, Repr

def ShortDecimal.trim : (count : Nat) → ShortDecimal → ShortDecimal
  | 0, decimal => decimal
  | count + 1, decimal =>
    if decimal.digits % 10 = 0 then
      trim count { digits := decimal.digits / 10, exponent := decimal.exponent + 1 }
    else decimal

/-- The float `significand * 2 ^ exponent` together with the interval of the
numbers that read back to it, all in quarters of the last place. -/
structure Rounding where
  low : Nat
  value : Nat
  high : Nat
  closed : Bool
  exponent : Int
deriving DecidableEq, Repr

def Rounding.around (significand : Nat) (exponent : Int) : Rounding :=
  let narrow := significand = hiddenBit && exponent > -1074
  { low := if narrow then 4 * significand - 1 else 4 * significand - 2
    value := 4 * significand
    high := 4 * significand + 2
    closed := significand % 2 = 0
    exponent := exponent - 2 }

def Rounding.holds (rounding : Rounding) (digits : Nat) (grid : Int) : Bool :=
  let point := digits * Nat.pow 10 grid.toNat * Nat.pow 2 (-rounding.exponent).toNat
  let unit := Nat.pow 10 (-grid).toNat * Nat.pow 2 rounding.exponent.toNat
  if rounding.closed then rounding.low * unit ≤ point && point ≤ rounding.high * unit
  else rounding.low * unit < point && point < rounding.high * unit

/-- The nearest of the float's two neighbours on a grid that read back. -/
def Rounding.onGrid? (rounding : Rounding) (tie : Tie) (grid : Int) : Option ShortDecimal :=
  let ratio := Ratio.scaled rounding.value rounding.exponent (-grid)
  let below := ratio.num / ratio.den
  match rounding.holds below grid, rounding.holds (below + 1) grid with
  | true, true => some { digits := ratio.round tie, exponent := grid }
  | true, false => some { digits := below, exponent := grid }
  | false, true => some { digits := below + 1, exponent := grid }
  | false, false => none

/-- The exponent of the power of ten just above a positive number
`whole * 2 ^ twos`: a bound from the binary length, corrected by comparison. -/
def pointPosition (whole : Nat) (twos : Int) : Int :=
  let guess := ((whole.log2 : Int) + twos) * 30103 / 100000
  let above (power : Int) : Bool :=
    let ratio := Ratio.scaled whole twos (-power)
    ratio.num < ratio.den
  ([guess - 1, guess, guess + 1].find? above).getD (guess + 2)

def mostDigits : Nat := 17

/-- The shortest decimal of the positive float `significand * 2 ^ exponent`. -/
def shortest (significand : Nat) (exponent : Int) (tie : Tie) : ShortDecimal :=
  let rounding := Rounding.around significand exponent
  let point := pointPosition significand exponent
  let grids := (List.range mostDigits).map fun (count : Nat) => point - 1 - (count : Int)
  match grids.findSome? (rounding.onGrid? tie) with
  | some decimal => decimal.trim mostDigits
  | none =>
    let grid := point - mostDigits
    { digits := (Ratio.scaled significand exponent (-grid)).round tie, exponent := grid }

end Tenure.Decimal
