import Tenure.Heap.Growth
import Tenure.Marking.Marker

/-!
# Minor cycles

A minor cycle reclaims young objects only. It traces inside the young spaces, from
the roots and from what old objects on dirty cards reference, moves the survivors
to the empty survivor space or the old space, and changes the roles of the survivor
spaces. The older survivors go first: the space they go to has the capacity of the
one they come from, so there is a place for each of them.
-/

set_option autoImplicit false

namespace Tenure

structure MinorOutcome where
  objectsReclaimed : Nat
  bytesReclaimed : Nat
  /-- Survivors copied to a survivor space. -/
  survived : Nat
  /-- Survivors that moved to the old space because of their age. -/
  promoted : Nat
  /-- Survivors that moved to the old space because the survivor space was full. -/
  overflowPromoted : Nat
  /-- Survivors left in place because no space could take them. -/
  retained : Nat
  /-- Whether the old space could not take an object that was to move there. -/
  promotionFailed : Bool
  /-- Dirty cards scanned. -/
  cardsScanned : Nat
  /-- References from dirty cards to young objects that are no roots. -/
  cardRoots : Nat
  trace : TraceCounts
  survival : Survival

/-- What became of a survivor. -/
inductive Fate where
  | copied
  /-- Moved to the old space; early if its age would not have asked for it. -/
  | promoted (early : Bool)
  | retained
deriving DecidableEq, Repr

def Fate.isPromoted : Fate → Bool
  | .promoted _ => true
  | _ => false

/-- The progress of moving survivors: their fates so far, from first to last, and
whether a promotion failed. -/
structure Evacuation (Source : Type) where
  heap : Heap Source
  fates : Array (Handle × Fate)
  promotionFailed : Bool

namespace Evacuation

variable {Source : Type}

def count (evacuation : Evacuation Source) (fate : Fate) : Nat :=
  evacuation.fates.countP fun entry => entry.2 = fate

def promoted (evacuation : Evacuation Source) : List Handle :=
  (evacuation.fates.toList.filter fun entry => entry.2.isPromoted).map Prod.fst

def retained (evacuation : Evacuation Source) : HandleSet :=
  .of ((evacuation.fates.toList.filter fun entry => entry.2 = .retained).map Prod.fst)

end Evacuation

namespace Heap

variable {Source : Type}

/-- Moves an object to a place in a space, which is never a younger one. -/
def relocate (heap : Heap Source) (handle : Handle) (generation : Generation) (space : Space)
    (place : Placement) (age : Nat) : Checked (Heap Source) :=
  if generation ≤ space.generation then
    let directory := heap.directory.update handle fun record =>
      { record with generation := space.generation, space, address := place.address, age }
    .ok ({ heap with directory }.pushTo space handle place.size)
  else .error .generationLowered

/-- Copies a survivor to a survivor space, or leaves it where it is if that is full. -/
def copy (heap : Heap Source) (handle : Handle) (record : Record) (target : Side) (age : Nat) :
    Checked (Fate × Heap Source) := do
  match ← (heap.survivor target).placement? record.size with
  | none => return (.retained, heap)
  | some place =>
    let heap ← heap.relocate handle record.generation (.survivor target) place age
    return (.copied, heap)

/-- Moves one survivor. It goes to the old space if it is old enough or the target
would be filled above the limit, and otherwise, or if the old space has no place,
to the target. Answers its fate and whether its promotion failed. -/
def evacuate [MemorySource Source] (heap : Heap Source) (target : Side) (handle : Handle) :
    Checked (Fate × Bool × Heap Source) := do
  match heap.directory.get? handle with
  | none => return (.retained, false, heap)
  | some record =>
    let age := min (record.age + 1) maxAge
    let fits ←
      (heap.survivor target).fitsWithin record.size heap.settings.survivorOccupancyLimit
    if heap.threshold ≤ age || !fits then
      match ← heap.placementInOld record.size with
      | (some place, heap) =>
        let heap ← heap.relocate handle record.generation .old place age
        return (.promoted (age < heap.threshold), false, heap)
      | (none, heap) =>
        let (fate, heap) ← heap.copy handle record target age
        return (fate, true, heap)
    else
      let (fate, heap) ← heap.copy handle record target age
      return (fate, false, heap)

def evacuateAll [MemorySource Source] (heap : Heap Source) (target : Side)
    (survivors : List Handle) : Checked (Evacuation Source) :=
  survivors.foldlM (fun evacuation handle => do
    let (fate, failed, heap) ← evacuation.heap.evacuate target handle
    return {
      heap
      fates := evacuation.fates.push (handle, fate)
      promotionFailed := evacuation.promotionFailed || failed })
    { heap, fates := #[], promotionFailed := false }

/-- Empties eden and the space the survivors came from, except for what was
retained, and lets the survivor spaces change their roles. -/
def vacate (heap : Heap Source) (retained : HandleSet) : Checked (Heap Source) := do
  let source := heap.holding
  let (edenMoves, eden) ← heap.eden.slide retained.contains
  let (sourceMoves, emptied) ← (heap.survivor source).slide retained.contains
  let directory := (heap.directory.follow edenMoves).follow sourceMoves
  let heap := { heap with directory, eden }.setArena (.survivor source) emptied
  if emptied.residents.isEmpty then return { heap with holding := source.other }
  else return heap

/-- Marks the cards of those among some old objects that reference young ones. -/
def remember (heap : Heap Source) (holders : List Handle) : Checked (Heap Source) := do
  let cards ← holders.foldlM (fun (cards : CardTable) holder => do
    if heap.directory.referencesYoung holder then
      match heap.directory.get? holder with
      | some record =>
        let (_, cards) ← cards.mark record.address
        return cards
      | none => return cards
    else return cards) heap.cards
  return { heap with cards }

/-- The young objects that fields of old holders name, with repeats. -/
def youngTargets (heap : Heap Source) (holders : List Handle) : List Handle :=
  holders.flatMap fun holder =>
    (heap.directory.graph.targets holder).filter heap.directory.isYoung

def survivalRate (youngBefore survived : Nat) : Float :=
  if youngBefore = 0 then 0.0
  else survived.toUInt64.toFloat / youngBefore.toUInt64.toFloat

/-- Runs a minor cycle. Handles among the roots that name no young object have no
effect. -/
def minorCycle [MemorySource Source] (heap : Heap Source) (marker : Marker)
    (roots : List Handle) : Checked (Answer MinorOutcome × Heap Source × Marker) := do
  let target := heap.holding.other
  if !(heap.survivor target).residents.isEmpty then throw .targetOccupied
  let young := (heap.survivor heap.holding).handles ++ heap.eden.handles
  let dirty := heap.cards.dirty
  let (found, cards) ← heap.cards.scanAll heap.cardView dirty
  let holders := (HandleSet.of found).toList
  let remembered := heap.youngTargets holders
  let external := HandleSet.of roots
  let cardRoots ← Word.counted (remembered.filter fun target => !external.contains target).length
  let heap := { heap with cards }
  let (reached, marker) ← marker.traceInSteps heap.directory.graph heap.directory.isYoung
    (roots ++ remembered) heap.settings.stepBudget.toNat heap.settings.verifyAfterTrace
  match reached with
  | .error failure => return (.error failure, heap, marker)
  | .ok reached =>
    let (survivors, dead) := young.partition reached.contains
    let (tally, directory) ← heap.directory.sweep dead
    let evacuation ← { heap with directory }.evacuateAll target survivors
    let heap ← evacuation.heap.vacate evacuation.retained
    let heap ← heap.remember (holders ++ evacuation.promoted)
    let promoted := evacuation.count (.promoted false)
    let overflowPromoted := evacuation.count (.promoted true)
    let survival : Survival := {
      youngBefore := young.length
      survived := reached.size
      promoted := promoted + overflowPromoted
      rate := survivalRate young.length reached.size }
    let outcome : MinorOutcome := {
      objectsReclaimed := tally.objects
      bytesReclaimed := tally.bytes
      survived := evacuation.count .copied
      promoted
      overflowPromoted
      retained := evacuation.count .retained
      promotionFailed := evacuation.promotionFailed
      cardsScanned := dirty.length
      cardRoots
      trace := marker.counts
      survival }
    return (.ok outcome, { heap with survival }, marker)

end Heap

end Tenure
