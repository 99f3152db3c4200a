/-!
# Floats as binary fractions

A finite float is a whole number times a power of two. Everything about its
decimal text is decided in whole numbers from there.
-/

set_option autoImplicit false

namespace Tenure.Decimal

/-- What a float stands for. A finite one is `significand * 2 ^ exponent`. -/
inductive Binary where
  | notANumber
  | infinite (negative : Bool)
  | finite (negative : Bool) (significand : Nat) (exponent : Int)
deriving DecidableEq, Repr

/-- The significand that marks the step to a coarser spacing: below a power of
two the floats lie twice as close as above it. -/
def hiddenBit : Nat := 0x10000000000000

def signBit : Nat := 0x8000000000000000

def Binary.ofFloat (value : Float) : Binary :=
  let bits := value.toBits.toNat
  let negative := signBit ≤ bits
  let scale := bits / hiddenBit % 2048
  let fraction := bits % hiddenBit
  if scale = 2047 then
    if fraction = 0 then .infinite negative else .notANumber
  else if scale = 0 then .finite negative fraction (-1074)
  else .finite negative (hiddenBit + fraction) ((scale : Int) - 1075)

/-- A nonnegative fraction of whole numbers; the denominator is positive. -/
structure Ratio where
  num : Nat
  den : Nat
deriving DecidableEq, Repr

def Ratio.scaled (whole : Nat) (twos tens : Int) : Ratio :=
  { num := whole * Nat.pow 2 twos.toNat * Nat.pow 10 tens.toNat
    den := Nat.pow 2 (-twos).toNat * Nat.pow 10 (-tens).toNat }

/-- Which whole number a value halfway between two goes to. -/
inductive Tie where
  | even
  | up
deriving DecidableEq, Repr

def Ratio.round (ratio : Ratio) (tie : Tie) : Nat :=
  let below := ratio.num / ratio.den
  let rest := 2 * (ratio.num % ratio.den)
  if rest < ratio.den then below
  else if ratio.den < rest then below + 1
  else
    match tie with
    | .even => if below % 2 = 0 then below else below + 1
    | .up => below + 1

end Tenure.Decimal
