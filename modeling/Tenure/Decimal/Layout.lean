import Tenure.Decimal.Shortest

/-!
# Written floats

A format decides how the shortest digits of a float are laid out: up to which
sizes positionally, what marks a whole number, and what stands for values that
are no numbers. A fixed layout has a set number of places instead.
-/

set_option autoImplicit false

namespace Tenure.Decimal

structure FloatFormat where
  /-- Whether a number is written positionally, by the position of the point:
  one for `1` to `9`, zero for `0.1`. -/
  positional : Int → Bool
  wholeMark : String
  tie : Tie
  notANumber : String
  infinity : String
  negativeInfinity : String

def layPositional (digits : String) (point : Int) (wholeMark : String) : String :=
  let length := digits.length
  if point ≤ 0 then "0." ++ "".pushn '0' (-point).toNat ++ digits
  else if length ≤ point.toNat then digits.pushn '0' (point.toNat - length) ++ wholeMark
  else String.ofList (digits.toList.take point.toNat) ++ "." ++
    String.ofList (digits.toList.drop point.toNat)

/-- One digit before the point and a power of ten behind, whose sign is always
written. -/
def layScientific (digits : String) (point : Int) : String :=
  let power := point - 1
  let mantissa :=
    match digits.toList with
    | [] => ""
    | [lone] => lone.toString
    | leading :: rest => leading.toString ++ "." ++ String.ofList rest
  mantissa ++ "e" ++ (if power < 0 then "-" else "+") ++ toString power.natAbs

def FloatFormat.lay (format : FloatFormat) (decimal : ShortDecimal) : String :=
  let digits := toString decimal.digits
  let point := (digits.length : Int) + decimal.exponent
  if format.positional point then layPositional digits point format.wholeMark
  else layScientific digits point

def FloatFormat.write (format : FloatFormat) (value : Float) : String :=
  match Binary.ofFloat value with
  | .notANumber => format.notANumber
  | .infinite true => format.negativeInfinity
  | .infinite false => format.infinity
  | .finite negative significand exponent =>
    let sign := if negative then "-" else ""
    if significand = 0 then sign ++ "0" ++ format.wholeMark
    else sign ++ format.lay (shortest significand exponent format.tie)

/-- Floats in messages: positional at every size, and whole numbers bare. -/
def plainFormat : FloatFormat where
  positional _ := true
  wholeMark := ""
  tie := .up
  notANumber := "NaN"
  infinity := "inf"
  negativeInfinity := "-inf"

/-- Floats in documents: positional from a hundred-thousandth up to below ten to
the sixteenth, and `null` for what is no number. -/
def documentFormat : FloatFormat where
  positional point := -4 ≤ point && point ≤ 16
  wholeMark := ".0"
  tie := .even
  notANumber := "null"
  infinity := "null"
  negativeInfinity := "null"

/-- The text of a float with a fixed number of places, at least one; halves go
to the even neighbour of the exact value. -/
def writeFixed (places : Nat) (value : Float) : String :=
  match Binary.ofFloat value with
  | .notANumber => plainFormat.notANumber
  | .infinite true => plainFormat.negativeInfinity
  | .infinite false => plainFormat.infinity
  | .finite negative significand exponent =>
    let sign := if negative then "-" else ""
    let units := (Ratio.scaled significand exponent places).round .even
    let unit := Nat.pow 10 places
    let fraction := toString (units % unit)
    sign ++ toString (units / unit) ++ "." ++
      "".pushn '0' (places - fraction.length) ++ fraction

end Tenure.Decimal
