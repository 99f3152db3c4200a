import Tenure.Json

/-!
# Written durations

A duration is a number of nanoseconds. It is written in the largest unit of which
it holds at least one, with all its digits and no trailing zeros.
-/

set_option autoImplicit false

namespace Tenure.Duration

def second : Nat := 1000000000

/-- The units above a nanosecond, from the largest: how many places of nanoseconds
they have, and their names. -/
def units : List (Nat × String) := [(9, "s"), (6, "ms"), (3, "µs")]

/-- The digits of a fraction with so many places, without trailing zeros. -/
def fraction (places rest : Nat) : String :=
  let digits := toString rest
  let padded := ("".pushn '0' (places - digits.length) ++ digits).toList
  String.ofList (padded.reverse.dropWhile (· = '0')).reverse

def write (nanoseconds : Nat) : String :=
  match units.find? fun unit => Nat.pow 10 unit.1 ≤ nanoseconds with
  | none => s!"{nanoseconds}ns"
  | some (places, name) =>
    let whole := nanoseconds / Nat.pow 10 places
    let rest := nanoseconds % Nat.pow 10 places
    if rest = 0 then s!"{whole}{name}"
    else toString whole ++ "." ++ fraction places rest ++ name

/-- A duration in documents: whole seconds and the nanoseconds beside them. -/
def toJson (nanoseconds : Nat) : Json :=
  .ofFields [("secs", .ofNat (nanoseconds / second)), ("nanos", .ofNat (nanoseconds % second))]

end Tenure.Duration
