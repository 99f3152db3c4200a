import Tenure.Word

/-!
# Written numbers and their values

A numeral is a decimal number split into its parts. Its value as a float is
computed in one of two ways: to the nearest float, or quickly from the digits
that fit a word, with one step per power of ten.
-/

set_option autoImplicit false

namespace Tenure.Decimal

/-- The parts of a decimal number; digits are numbers below ten. -/
structure Numeral where
  negative : Bool
  whole : List Nat
  fraction : Option (List Nat)
  power : Option (Bool × List Nat)
deriving DecidableEq, Repr

def digit? (character : Char) : Option Nat :=
  if '0' ≤ character && character ≤ '9' then some (character.toNat - '0'.toNat) else none

def ofDigits (digits : List Nat) : Nat := digits.foldl (fun number digit => number * 10 + digit) 0

def spanDigits : List Char → List Nat × List Char
  | [] => ([], [])
  | character :: rest =>
    match digit? character with
    | some digit =>
      let (digits, others) := spanDigits rest
      (digit :: digits, others)
    | none => ([], character :: rest)

/-- Splits off a sign, if there is one; answers whether it is a minus. -/
def spanSign : List Char → Bool × List Char
  | '-' :: rest => (true, rest)
  | '+' :: rest => (false, rest)
  | rest => (false, rest)

namespace Numeral

def powerValue (numeral : Numeral) : Int :=
  match numeral.power with
  | some (true, digits) => -(ofDigits digits : Int)
  | some (false, digits) => ofDigits digits
  | none => 0

def natural? (numeral : Numeral) : Option Nat :=
  if numeral.negative || numeral.fraction.isSome || numeral.power.isSome then none
  else some (ofDigits numeral.whole)

def signed (numeral : Numeral) (magnitude : Float) : Float :=
  if numeral.negative then -magnitude else magnitude

/-- The value of a numeral as the nearest float. Far outside the range of floats
it is zero or infinite without the power being computed. -/
def nearest (numeral : Numeral) : Float :=
  let fraction := numeral.fraction.getD []
  let digits := numeral.whole ++ fraction
  let significand := ofDigits digits
  let exponent := numeral.powerValue - fraction.length
  let size := (digits.dropWhile (· = 0)).length + exponent
  numeral.signed <|
    if significand = 0 || size < -400 then 0.0
    else if size > 400 then 1.0 / 0.0
    else Float.ofScientific significand (exponent < 0) exponent.natAbs

/-! ## The quick way -/

/-- The leading digits of a number that fit a word, and the power of ten that
makes up for those that do not. -/
structure Leading where
  significand : Nat
  exponent : Int
  full : Bool
deriving DecidableEq, Repr

def Leading.admits (leading : Leading) (digit : Nat) : Bool :=
  leading.significand * 10 + digit < Word.limit

/-- Takes a digit before the point. Once one is left out, so are the others, and
each of them counts as a power of ten. -/
def Leading.takeWhole (leading : Leading) (digit : Nat) : Leading :=
  if !leading.full && leading.admits digit then
    { leading with significand := leading.significand * 10 + digit }
  else { leading with exponent := leading.exponent + 1, full := true }

def Leading.takeFraction (leading : Leading) : List Nat → Leading
  | [] => leading
  | digit :: rest =>
    if leading.admits digit then
      { leading with
        significand := leading.significand * 10 + digit
        exponent := leading.exponent - 1 }.takeFraction rest
    else leading

def largestStep : Nat := 308

def powerOfTen (power : Nat) : Float := Float.ofScientific 1 false power

/-- Multiplies by a power of ten, or divides by its inverse; none if the number
grows out of the range of floats. -/
def scale? (magnitude : Float) (exponent : Int) : Option Float :=
  if exponent.natAbs ≤ largestStep then
    if exponent < 0 then some (magnitude / powerOfTen exponent.natAbs)
    else
      let product := magnitude * powerOfTen exponent.natAbs
      if product.isInf then none else some product
  else if magnitude == 0.0 then some magnitude
  else if 0 ≤ exponent then none
  else scale? (magnitude / powerOfTen largestStep) (exponent + largestStep)
termination_by exponent.natAbs
decreasing_by
  simp only [largestStep] at *
  omega

def greatestPower : Nat := 0x7fffffff

/-- The value of a numeral as a float, from its leading digits; none if it is out
of the range of floats. -/
def quick? (numeral : Numeral) : Option Float :=
  let whole := numeral.whole.foldl Leading.takeWhole { significand := 0, exponent := 0, full := false }
  let leading := whole.takeFraction (numeral.fraction.getD [])
  let magnitude := leading.significand.toUInt64.toFloat
  let absolute :=
    if numeral.powerValue.natAbs > greatestPower then
      if leading.significand ≠ 0 && 0 < numeral.powerValue then none else some 0.0
    else scale? magnitude (leading.exponent + numeral.powerValue)
  absolute.map numeral.signed

end Numeral

end Tenure.Decimal
