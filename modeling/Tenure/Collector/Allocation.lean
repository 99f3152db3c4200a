import Tenure.Collector.Cycle

/-!
# Allocation with cycles

Allocation collects only as much as it has to: nothing where eden has room, then a
minor cycle, then a major one. It gives up when not even that has made room.
-/

set_option autoImplicit false

namespace Tenure.Collector

variable {Source Policy Hearer : Type}

def tryAllocate (collector : Collector Source Policy Hearer) (size fieldCount : Nat) :
    Checked (Option Handle × Collector Source Policy Hearer) := do
  let (placed, heap) ← collector.heap.tryAllocate size fieldCount
  return (placed, { collector with heap })

/-- Counts a request that no cycle made room for, and reports what room there is. -/
def giveUp (collector : Collector Source Policy Hearer) (size : Nat) :
    Checked (Failure × Collector Source Policy Hearer) := do
  let allocationFailures ← Word.add collector.totals.allocationFailures 1
  let requested ← alignSize size
  let edenFree ← collector.heap.eden.free
  let oldFree ← collector.heap.old.free
  return (.allocationFailure requested edenFree oldFree,
    { collector with totals := { collector.totals with allocationFailures } })

variable [MemorySource Source] [PromotionPolicy Policy] [Listener Hearer]
variable {Roots : Type} [RootProvider Roots]

/-- Places an object, after a major cycle if there is no room before it. -/
def allocateAfterMajor (collector : Collector Source Policy Hearer) (roots : Roots)
    (size fieldCount : Nat) : Checked (Answer Handle × Collector Source Policy Hearer) := do
  match ← collector.collectMajor roots with
  | (.error failure, collector) => return (.error failure, collector)
  | (.ok _, collector) =>
    match ← collector.tryAllocate size fieldCount with
    | (some handle, collector) => return (.ok handle, collector)
    | (none, collector) =>
      let (failure, collector) ← collector.giveUp size
      return (.error failure, collector)

/-- Places an object after a minor cycle, and a major one if that is not enough. -/
def allocateAfterMinor (collector : Collector Source Policy Hearer) (roots : Roots)
    (size fieldCount : Nat) : Checked (Answer Handle × Collector Source Policy Hearer) := do
  match ← collector.collectMinor roots with
  | (.error failure, collector) => return (.error failure, collector)
  | (.ok _, collector) =>
    match ← collector.tryAllocate size fieldCount with
    | (some handle, collector) => return (.ok handle, collector)
    | (none, collector) => collector.allocateAfterMajor roots size fieldCount

/-- Places an object with so many null fields, with the cycles that it takes. A
major cycle that the minor one asked for keeps waiting if the object finds room. -/
def allocate (collector : Collector Source Policy Hearer) (roots : Roots)
    (size fieldCount : Nat) : Checked (Answer Handle × Collector Source Policy Hearer) := do
  match collector.checkPoison with
  | .error failure => return (.error failure, collector)
  | .ok () =>
    match ← collector.tryAllocate size fieldCount with
    | (some handle, collector) => return (.ok handle, collector)
    | (none, collector) => collector.allocateAfterMinor roots size fieldCount

end Tenure.Collector
