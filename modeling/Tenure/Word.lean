/-!
# Machine words

Sizes, addresses and counters are natural numbers below `Word.limit`. Arithmetic
that would leave this range answers with a trap instead of a wrapped number, and
a trap ends the operation that met it: no state survives it.
-/

set_option autoImplicit false

namespace Tenure

/-- Causes for which an operation stops without an answer. -/
inductive Trap where
  | addOverflow
  | subUnderflow
  | indexOutOfRange
  | tableTooLarge
  | cardSizeNotPowerOfTwo
  | targetOccupied
  | generationLowered
  | collectorBusy
  | markingStalled
deriving DecidableEq, Repr

def Trap.message : Trap → String
  | .addOverflow => "attempt to add with overflow"
  | .subUnderflow => "attempt to subtract with overflow"
  | .indexOutOfRange => "index out of bounds"
  | .tableTooLarge => "capacity overflow"
  | .cardSizeNotPowerOfTwo => "assertion failed: card_size.is_power_of_two()"
  | .targetOccupied => "assertion failed: target survivor space is empty"
  | .generationLowered => "assertion failed: generation >= record.generation"
  | .collectorBusy => "assertion failed: collector is idle"
  | .markingStalled => "marking does not end"

abbrev Checked (Value : Type) : Type := Except Trap Value

namespace Word

def limit : Nat := 0x10000000000000000

def greatest : Nat := limit - 1

def add (left right : Nat) : Checked Nat :=
  if left + right < limit then .ok (left + right) else .error .addOverflow

def sub (left right : Nat) : Checked Nat :=
  if right ≤ left then .ok (left - right) else .error .subUnderflow

def counted (count : Nat) : Checked Nat := add 0 count

/-- The sum of two words, or the greatest word where the sum is none. -/
def addSaturating (left right : Nat) : Nat := min (left + right) greatest

def largestTable : Nat := 0x7fffffffffffffff

/-- Traps where a table of `count` entries of `width` bytes each would be too large. -/
def checkTable (count width : Nat) : Checked Unit :=
  if count * width ≤ largestTable then .ok () else .error .tableTooLarge

/-- Exactly the powers of two satisfy this test; zero does not. -/
def isPowerOfTwo (value : Nat) : Bool := Nat.pow 2 value.log2 == value

theorem add_eq_ok_iff {left right total : Nat} :
    add left right = .ok total ↔ left + right < limit ∧ total = left + right := by
  unfold add
  split
  · rename_i fits
    simp only [Except.ok.injEq, fits, true_and]
    exact eq_comm
  · rename_i exceeds
    simp [exceeds]

theorem counted_eq_ok_iff {count total : Nat} :
    counted count = .ok total ↔ count < limit ∧ total = count := by
  rw [counted, add_eq_ok_iff, Nat.zero_add]

theorem sub_eq_ok_iff {left right rest : Nat} :
    sub left right = .ok rest ↔ right ≤ left ∧ rest = left - right := by
  unfold sub
  split
  · rename_i ordered
    simp only [Except.ok.injEq, ordered, true_and]
    exact eq_comm
  · rename_i unordered
    simp [unordered]

theorem add_of_lt {left right : Nat} (fits : left + right < limit) :
    add left right = .ok (left + right) := if_pos fits

theorem sub_of_le {left right : Nat} (ordered : right ≤ left) :
    sub left right = .ok (left - right) := if_pos ordered

theorem checkTable_eq_ok_iff {count width : Nat} :
    checkTable count width = .ok () ↔ count * width ≤ largestTable := by
  unfold checkTable
  split
  · rename_i fits
    simp [fits]
  · rename_i exceeds
    simp [exceeds]

theorem isPowerOfTwo_iff {value : Nat} :
    isPowerOfTwo value = true ↔ ∃ exponent, value = Nat.pow 2 exponent := by
  unfold isPowerOfTwo
  rw [beq_iff_eq]
  constructor
  · intro same
    exact ⟨value.log2, same.symm⟩
  · rintro ⟨exponent, rfl⟩
    have log : (Nat.pow 2 exponent).log2 = exponent := Nat.log2_two_pow
    rw [log]

end Word

def granule : Nat := 8

/-- Rounds a size up to whole granules. An empty request takes one granule, so
that every object has an address of its own. The size and one more granule have
to be a word together. -/
def alignSize (size : Nat) : Checked Nat := do
  let beyond ← Word.add (max size 1) granule
  return (beyond - 1) / granule * granule

end Tenure
