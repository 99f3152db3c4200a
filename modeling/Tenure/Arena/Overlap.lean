import Tenure.Arena

/-!
# Residents that overlap a range

A card of the card table covers a range of addresses, and its scan has to find
the objects whose storage meets that range. The residents are sorted, so the
first of them is found by bisection and the rest follow it.
-/

set_option autoImplicit false

namespace Tenure.Arena

/-- The least index from `low` to `high` whose resident ends after `start`, or
`high`; the residents that end at or before `start` come first. -/
def firstEndingAfter (residents : Array Resident) (start low high : Nat) : Nat :=
  if _ : low < high then
    let middle := (low + high) / 2
    match residents[middle]? with
    | some resident =>
        if resident.finish ≤ start then firstEndingAfter residents start (middle + 1) high
        else firstEndingAfter residents start low middle
    | none => firstEndingAfter residents start low middle
  else low
termination_by high - low
decreasing_by all_goals omega

/-- The handles from `index` on whose residents start before `stop`. -/
def startingBefore (residents : Array Resident) (stop index : Nat) : List Handle :=
  if _ : index < residents.size then
    if residents[index].offset < stop then
      residents[index].handle :: startingBefore residents stop (index + 1)
    else []
  else []
termination_by residents.size - index

/-- The residents whose storage overlaps the addresses from `start` up to but
not including `stop`, in address order. Addresses below the base count as the
base. -/
def overlapping (arena : Arena) (start stop : Nat) : List Handle :=
  let first := firstEndingAfter arena.residents (start - arena.base) 0 arena.residents.size
  startingBefore arena.residents (stop - arena.base) first

def overlappingByScan (arena : Arena) (start stop : Nat) : List Handle :=
  (arena.residents.toList.filter fun resident =>
    arena.base + resident.offset < stop && start < arena.base + resident.finish).map
      Resident.handle

end Tenure.Arena
