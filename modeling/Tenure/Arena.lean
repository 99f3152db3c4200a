import Tenure.Generation
import Tenure.Handle
import Tenure.Word

/-!
# Arenas

An arena is a contiguous range of addresses that is filled from the bottom.
Objects are never freed one by one: room comes back when the residents that stay
are slid together (`Tenure.Arena.Slide`). The residents lie one after the other
without gaps, from the base up to the frontier.
-/

set_option autoImplicit false

namespace Tenure

/-- The place of one object inside an arena, relative to its base. -/
structure Resident where
  handle : Handle
  offset : Nat
  size : Nat
deriving DecidableEq, Repr

/-- The offset after the last byte of a resident. It never exceeds the bytes in
use of the arena, so it is a word. -/
def Resident.finish (resident : Resident) : Nat := resident.offset + resident.size

/-- A range of addresses with the objects placed in it, in address order. -/
structure Arena where
  space : Space
  base : Nat
  capacity : Nat
  used : Nat
  residents : Array Resident
deriving DecidableEq, Repr

/-- Where an arena would put its next object, and how many bytes it would take. -/
structure Placement where
  address : Nat
  size : Nat
deriving DecidableEq, Repr

namespace Arena

def empty (space : Space) (base capacity : Nat) : Arena :=
  { space, base, capacity, used := 0, residents := #[] }

def handles (arena : Arena) : List Handle := arena.residents.toList.map Resident.handle

def free (arena : Arena) : Checked Nat := Word.sub arena.capacity arena.used

/-- The storage that an object of `size` bytes would take, or none if it does not fit. -/
def room? (arena : Arena) (size : Nat) : Checked (Option Nat) := do
  let size ← alignSize size
  if size > (← arena.free) then return none else return some size

def frontier (arena : Arena) : Checked Nat := Word.add arena.base arena.used

/-- The place of the next object of `size` bytes, or none if it does not fit. -/
def placement? (arena : Arena) (size : Nat) : Checked (Option Placement) := do
  match ← arena.room? size with
  | none => return none
  | some size =>
    let address ← arena.frontier
    return some { address, size }

/-- Adds an object of `size` bytes, which are whole granules, at the frontier. -/
def push (arena : Arena) (handle : Handle) (size : Nat) : Arena :=
  { arena with
    used := arena.used + size
    residents := arena.residents.push { handle, offset := arena.used, size } }

/-- Places an object and answers its address, or leaves the arena as it is. -/
def bump (arena : Arena) (handle : Handle) (size : Nat) : Checked (Option Nat × Arena) := do
  match ← arena.placement? size with
  | none => return (none, arena)
  | some place => return (some place.address, arena.push handle place.size)

/-- Bytes that may be in use under a limit, a fraction of the capacity. -/
def ceiling (arena : Arena) (limit : Float) : Nat :=
  min (arena.capacity.toUInt64.toFloat * limit).toUInt64.toNat arena.capacity

def fitsWithin (arena : Arena) (size : Nat) (limit : Float) : Checked Bool := do
  let size ← alignSize size
  let filled ← Word.add arena.used size
  return filled ≤ arena.ceiling limit

def grow (arena : Arena) (additional : Nat) : Checked Arena := do
  let capacity ← Word.add arena.capacity additional
  return { arena with capacity }

/-- The fraction of the capacity in use; an arena without capacity is full. -/
def occupancy (arena : Arena) : Float :=
  if arena.capacity = 0 then 1.0
  else arena.used.toUInt64.toFloat / arena.capacity.toUInt64.toFloat

end Arena

end Tenure
