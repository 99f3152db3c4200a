import Tenure.Failure
import Tenure.Word

/-!
# Memory sources

The heap reserves each of its spaces once and asks for more room in place when
the old space runs full. What stands behind these requests is a memory source;
it decides about sizes, the heap only reports exhaustion.
-/

set_option autoImplicit false

namespace Tenure

/-- A state that answers requests for address ranges. -/
class MemorySource (Source : Type) where
  reserve : Source → Space → Nat → Checked (Answer Nat × Source)
  /-- Extends the reservation at a base by additional bytes without moving it. -/
  extend : Source → Space → (base current additional : Nat) → Checked (Bool × Source)

/-- A logical address space that gives every reservation a window of its own, so
that reservations never overlap and can grow up to the size of the window. The
bytes handed out may be bounded by a budget. -/
structure WindowedMemory where
  nextWindow : Nat
  committed : Nat
  budget : Option Nat
deriving DecidableEq, Repr

namespace WindowedMemory

def window : Nat := 0x40000000

def fresh (budget : Option Nat) : WindowedMemory :=
  { nextWindow := window, committed := 0, budget }

def admits (memory : WindowedMemory) (bytes : Nat) : Bool :=
  match memory.budget with
  | some budget => Word.addSaturating memory.committed bytes ≤ budget
  | none => true

/-- Opens the next window, unless the request exceeds it or the budget. -/
def reserve (memory : WindowedMemory) (space : Space) (bytes : Nat) :
    Checked (Answer Nat × WindowedMemory) := do
  if bytes > window || !memory.admits bytes then
    return (.error (.regionReservation space bytes), memory)
  else
    let nextWindow ← Word.add memory.nextWindow window
    let committed ← Word.add memory.committed bytes
    return (.ok memory.nextWindow, { memory with nextWindow, committed })

/-- Commits more bytes of a window, unless they exceed it or the budget. -/
def extend (memory : WindowedMemory) (current additional : Nat) :
    Checked (Bool × WindowedMemory) := do
  if Word.addSaturating current additional > window || !memory.admits additional then
    return (false, memory)
  else
    let committed ← Word.add memory.committed additional
    return (true, { memory with committed })

instance : MemorySource WindowedMemory where
  reserve := reserve
  extend memory _ _ current additional := memory.extend current additional

end WindowedMemory

structure Extension where
  space : Space
  base : Nat
  current : Nat
  additional : Nat
  granted : Bool
deriving DecidableEq, Repr

/-- A source whose answers are listed in advance. A missing base refuses the
reservation, and so does the end of either list; the requests for more room are
kept in their order. -/
structure ListedMemory where
  bases : List (Option Nat)
  grants : List Bool
  extensions : Array Extension
deriving DecidableEq, Repr

instance : MemorySource ListedMemory where
  reserve memory space bytes :=
    let rest := { memory with bases := memory.bases.tail }
    match memory.bases.head?.join with
    | some base => .ok (.ok base, rest)
    | none => .ok (.error (.regionReservation space bytes), rest)
  extend memory space base current additional :=
    let granted := memory.grants.head?.getD false
    .ok (granted,
      { memory with
        grants := memory.grants.tail
        extensions := memory.extensions.push { space, base, current, additional, granted } })

end Tenure
