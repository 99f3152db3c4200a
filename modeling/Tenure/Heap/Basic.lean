import Tenure.Arena.Overlap
import Tenure.Cards.Barrier
import Tenure.Cards.Scan
import Tenure.Heap.Directory
import Tenure.Memory
import Tenure.Settings

/-!
# The generational heap

New objects are placed in eden. Those that survive a minor cycle are copied to the
survivor space that is empty, and the survivor spaces change their roles; those
that survived often enough move to the old space. Major cycles reclaim everywhere
and slide what is left together. A card table over the old space remembers where
old objects may reference young ones.
-/

set_option autoImplicit false

namespace Tenure

/-- What the last minor cycle says about the survival of young objects. -/
structure Survival where
  youngBefore : Nat
  survived : Nat
  promoted : Nat
  /-- The fraction that survived; zero if there were no young objects. -/
  rate : Float

def Survival.zero : Survival := { youngBefore := 0, survived := 0, promoted := 0, rate := 0.0 }

structure Heap (Source : Type) where
  settings : Settings
  memory : Source
  directory : Directory
  eden : Arena
  survivorA : Arena
  survivorB : Arena
  /-- The survivor space that holds the survivors; the other one receives those of
  the next minor cycle. -/
  holding : Side
  old : Arena
  cards : CardTable
  barrier : BarrierCounts
  threshold : Nat
  survival : Survival

structure Usage where
  edenUsed : Nat
  edenCapacity : Nat
  survivorUsed : Nat
  survivorCapacity : Nat
  oldUsed : Nat
  oldCapacity : Nat
  liveObjects : Nat
deriving DecidableEq, Repr

namespace Heap

variable {Source : Type}

def reserveArena [MemorySource Source] (memory : Source) (space : Space) (capacity : Nat) :
    Refusable (Arena × Source) := do
  let (answer, memory) ← (MemorySource.reserve memory space capacity : Checked _)
  let base ← Refusable.of answer
  return (Arena.empty space base capacity, memory)

/-- An empty heap, unless the settings have a fault or the source refuses a space. -/
def create [MemorySource Source] (settings : Settings) (memory : Source) :
    Refusable (Heap Source) := do
  Refusable.of settings.validate
  let survivorSize := settings.survivorSize.toNat
  let (eden, memory) ← reserveArena memory .eden settings.edenSize.toNat
  let (survivorA, memory) ← reserveArena memory (.survivor .a) survivorSize
  let (survivorB, memory) ← reserveArena memory (.survivor .b) survivorSize
  let (old, memory) ← reserveArena memory .old settings.oldSize.toNat
  let cards ← (CardTable.create old.base old.capacity settings.cardSize.toNat : Checked _)
  return {
    settings
    memory
    directory := .empty
    eden
    survivorA
    survivorB
    holding := .a
    old
    cards
    barrier := .zero
    threshold := settings.promotionThreshold.toNat
    survival := .zero }

/-! ## Parts -/

def survivor (heap : Heap Source) : Side → Arena
  | .a => heap.survivorA
  | .b => heap.survivorB

def arena (heap : Heap Source) : Space → Arena
  | .eden => heap.eden
  | .survivor side => heap.survivor side
  | .old => heap.old

def setArena (heap : Heap Source) (space : Space) (arena : Arena) : Heap Source :=
  match space with
  | .eden => { heap with eden := arena }
  | .survivor .a => { heap with survivorA := arena }
  | .survivor .b => { heap with survivorB := arena }
  | .old => { heap with old := arena }

def pushTo (heap : Heap Source) (space : Space) (handle : Handle) (size : Nat) : Heap Source :=
  match space with
  | .eden => { heap with eden := heap.eden.push handle size }
  | .survivor .a => { heap with survivorA := heap.survivorA.push handle size }
  | .survivor .b => { heap with survivorB := heap.survivorB.push handle size }
  | .old => { heap with old := heap.old.push handle size }

def residents (heap : Heap Source) : List Handle :=
  Space.all.flatMap fun space => (heap.arena space).handles

def cardView (heap : Heap Source) : CardView where
  overlapping := heap.old.overlapping
  graph := heap.directory.graph
  isYoung := heap.directory.isYoung

/-- How full the spaces are; of the survivor spaces only the one in use counts. -/
def usage (heap : Heap Source) : Usage :=
  let survivor := heap.survivor heap.holding
  { edenUsed := heap.eden.used
    edenCapacity := heap.eden.capacity
    survivorUsed := survivor.used
    survivorCapacity := survivor.capacity
    oldUsed := heap.old.used
    oldCapacity := heap.old.capacity
    liveObjects := heap.directory.live }

def setThreshold (heap : Heap Source) (threshold : Nat) : Answer Unit × Heap Source :=
  match checkThreshold threshold with
  | .ok () => (.ok (), { heap with threshold })
  | .error failure => (.error failure, heap)

end Heap

end Tenure
