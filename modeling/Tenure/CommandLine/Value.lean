import Tenure.Decimal.Numeral
import Tenure.Simulation.Report

/-!
# Values on the command line

Whole numbers are written in decimal digits and may have a sign. Floats may also leave
out one side of the point, have a power of ten, or be named.
-/

set_option autoImplicit false

namespace Tenure.CommandLine

open Tenure.Decimal

def digits? (characters : List Char) : Option Nat :=
  match spanDigits characters with
  | (first :: others, []) => some (ofDigits (first :: others))
  | _ => none

/-- A word; a plus may stand before it. -/
def word? (text : String) : Option UInt64 := do
  let value ←
    match text.toList with
    | '+' :: rest => digits? rest
    | rest => digits? rest
  if value < Word.limit then some value.toUInt64 else none

def byte? (text : String) : Option UInt8 := do
  let (negative, rest) := spanSign text.toList
  let value ← digits? rest
  if value < 256 && (!negative || value = 0) then some value.toUInt8 else none

def namedFloat? (name : String) : Option Float :=
  match name.toLower with
  | "inf" => some (1.0 / 0.0)
  | "infinity" => some (1.0 / 0.0)
  | "nan" => some (0.0 / 0.0)
  | _ => none

def power? : List Char → Option (Option (Bool × List Nat))
  | [] => some none
  | letter :: rest =>
    if letter = 'e' || letter = 'E' then
      let (falling, characters) := spanSign rest
      match spanDigits characters with
      | (first :: others, []) => some (some (falling, first :: others))
      | _ => none
    else none

/-- A float in digits, without its sign; one side of the point may be left out. -/
def unsigned? (negative : Bool) (characters : List Char) : Option Numeral := do
  let (whole, rest) := spanDigits characters
  let (fraction, rest) :=
    match rest with
    | '.' :: others =>
      let (digits, others) := spanDigits others
      (some digits, others)
    | others => (none, others)
  if whole.isEmpty && (fraction.getD []).isEmpty then none
  else
    let power ← power? rest
    return { negative, whole, fraction, power }

def float? (text : String) : Option Float :=
  let (negative, rest) := spanSign text.toList
  match namedFloat? (String.ofList rest) with
  | some value => some (if negative then -value else value)
  | none => (unsigned? negative rest).map Numeral.nearest

def format? (text : String) : Option ReportFormat :=
  match text with
  | "text" => some .text
  | "json" => some .json
  | _ => none

def path? (text : String) : Option String := if text.isEmpty then none else some text

end Tenure.CommandLine
