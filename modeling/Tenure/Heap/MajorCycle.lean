import Tenure.Heap.MinorCycle

/-!
# Major cycles

A major cycle traces the whole heap from the roots alone, reclaims what it did not
reach and slides the rest together, space by space. Old addresses change with it,
so the card table is built anew.
-/

set_option autoImplicit false

namespace Tenure

structure MajorOutcome where
  objectsReclaimed : Nat
  bytesReclaimed : Nat
  liveObjects : Nat
  relocations : List Relocation
  oldGrownBy : Nat
  trace : TraceCounts

namespace Heap

variable {Source : Type}

/-- Slides the live objects of every space together and answers the moves in the
old space. -/
def compact (heap : Heap Source) : Checked (List Relocation × Heap Source) := do
  let keep := heap.directory.isLive
  let (edenMoves, eden) ← heap.eden.slide keep
  let (movesA, survivorA) ← heap.survivorA.slide keep
  let (movesB, survivorB) ← heap.survivorB.slide keep
  let (oldMoves, old) ← heap.old.slide keep
  let directory :=
    (((heap.directory.follow edenMoves).follow movesA).follow movesB).follow oldMoves
  return (oldMoves, { heap with directory, eden, survivorA, survivorB, old })

/-- Gives the old space half of its capacity more if it is full enough, and answers
how much it got. -/
def relieve [MemorySource Source] (heap : Heap Source) : Checked (Nat × Heap Source) := do
  if heap.old.occupancy ≥ heap.settings.oldGrowthTrigger then
    let additional ← alignSize (heap.old.capacity / 2)
    let (granted, heap) ← heap.growOld additional
    return (if granted then additional else 0, heap)
  else return (0, heap)

/-- Runs a major cycle. Stale handles among the roots have no effect. -/
def majorCycle [MemorySource Source] (heap : Heap Source) (marker : Marker)
    (roots : List Handle) : Checked (Answer MajorOutcome × Heap Source × Marker) := do
  let (reached, marker) ← marker.traceInSteps heap.directory.graph heap.directory.isLive
    roots heap.settings.stepBudget.toNat heap.settings.verifyAfterTrace
  match reached with
  | .error failure => return (.error failure, heap, marker)
  | .ok reached =>
    let dead := heap.residents.filter fun handle => !reached.contains handle
    let (tally, directory) ← heap.directory.sweep dead
    let (relocations, heap) ← { heap with directory }.compact
    let heap ← { heap with cards := heap.cards.clear }.remember heap.old.handles
    let (oldGrownBy, heap) ← heap.relieve
    let outcome : MajorOutcome := {
      objectsReclaimed := tally.objects
      bytesReclaimed := tally.bytes
      liveObjects := heap.directory.live
      relocations
      oldGrownBy
      trace := marker.counts }
    return (.ok outcome, heap, marker)

end Heap

end Tenure
