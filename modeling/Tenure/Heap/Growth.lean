import Tenure.Heap.Basic

/-!
# Growth of the old space

The old space grows in place where the memory source allows it, and the card table
grows with it.
-/

set_option autoImplicit false

namespace Tenure.Heap

variable {Source : Type} [MemorySource Source]

/-- Asks for more room in the old space and answers whether it was granted. -/
def growOld (heap : Heap Source) (additional : Nat) : Checked (Bool × Heap Source) := do
  let (granted, memory) ←
    MemorySource.extend heap.memory .old heap.old.base heap.old.capacity additional
  if granted then
    let old ← heap.old.grow additional
    let cards ← heap.cards.resize old.capacity
    return (true, { heap with memory, old, cards })
  else
    return (false, { heap with memory })

/-- A place in the old space, which grows for it by at least half if it has to. -/
def placementInOld (heap : Heap Source) (size : Nat) :
    Checked (Option Placement × Heap Source) := do
  match ← heap.old.placement? size with
  | some place => return (some place, heap)
  | none =>
    let aligned ← alignSize size
    let (granted, heap) ← heap.growOld (max aligned (heap.old.capacity / 2))
    if granted then
      let place ← heap.old.placement? size
      return (place, heap)
    else return (none, heap)

end Tenure.Heap
