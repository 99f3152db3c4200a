import Tenure.Collector.Allocation
import Tenure.Collector.Service
import Tenure.Random.Seeded
import Tenure.Simulation.Report
import Tenure.Simulation.RootWindow

/-!
# Running workloads

Every step allocates one object. It may be stored into a random field of a random
root, which exercises the barrier once roots have grown old, and it may become a root
itself, for which an older one may be dropped. What waits for the collector is served
before the next step.
-/

set_option autoImplicit false

namespace Tenure

structure Simulation (Random Policy : Type) where
  collector : Collector WindowedMemory Policy EventLog
  window : RootWindow
  random : Random

namespace Simulation

variable {Random Policy : Type}

def start (settings : Settings) (workload : Workload) (policy : Policy) (random : Random) :
    Simulated (Simulation Random Policy) := do
  let heap ← Simulated.ofRefusable (Heap.create settings (WindowedMemory.fresh none))
  let window ← (RootWindow.create workload.maxRoots.toNat : Checked _)
  return { collector := .ofHeap heap policy .empty, window, random }

def store (simulation : Simulation Random Policy) (holder : Handle) (index : Nat)
    (handle : Handle) : Simulated (Simulation Random Policy) := do
  let (_, collector) ← Simulated.ofStateful
    (simulation.collector.store holder index (some handle))
  return { simulation with collector }

/-- Stores a new object into a random field of a random root, if chance wants it and
there are roots and fields. -/
def link [RandomSource Random] (simulation : Simulation Random Policy) (workload : Workload)
    (handle : Handle) : Simulated (Simulation Random Policy) :=
  if fielded : 0 < workload.fields.toNat then
    let (wanted, random) := RandomSource.coin simulation.random workload.linkProbability
    if wanted then
      match simulation.window.pick? random with
      | (none, random) => return { simulation with random }
      | (some holder, random) =>
        let (index, random) := RandomSource.pick random workload.fields.toNat fielded
        { simulation with random }.store holder index.val handle
    else return { simulation with random }
  else return simulation

def keep [RandomSource Random] (simulation : Simulation Random Policy) (workload : Workload)
    (handle : Handle) : Simulation Random Policy :=
  let (kept, random) := RandomSource.coin simulation.random workload.survival
  if kept then { simulation with random, window := simulation.window.push handle }
  else { simulation with random }

variable [PromotionPolicy Policy]

def allocate (simulation : Simulation Random Policy) (workload : Workload) :
    Simulated (Handle × Simulation Random Policy) := do
  let (handle, collector) ← Simulated.ofStateful
    (simulation.collector.allocate simulation.window workload.objectSize.toNat
      workload.fields.toNat)
  return (handle, { simulation with collector })

def serve (simulation : Simulation Random Policy) :
    Simulated (Simulation Random Policy) := do
  let (_, collector) ← Simulated.ofStateful
    (simulation.collector.runPending simulation.window)
  return { simulation with collector }

def step [RandomSource Random] (simulation : Simulation Random Policy) (workload : Workload) :
    Simulated (Simulation Random Policy) := do
  let (handle, simulation) ← simulation.allocate workload
  let simulation ← simulation.link workload handle
  (simulation.keep workload handle).serve

def steps [RandomSource Random] (workload : Workload) :
    Nat → Simulation Random Policy → Simulated (Simulation Random Policy)
  | 0, simulation => return simulation
  | count + 1, simulation => do
    let simulation ← simulation.step workload
    steps workload count simulation

def finish (simulation : Simulation Random Policy) :
    Simulated (Simulation Random Policy) := do
  let (_, collector) ← (simulation.collector.request .minor : Checked _)
  { simulation with collector }.serve

def report (simulation : Simulation Random Policy) (settings : Settings)
    (workload : Workload) : Report :=
  let collector := simulation.collector
  { settings
    workload
    policy := PromotionPolicy.name collector.policy
    totals := collector.currentTotals
    usage := collector.heap.usage
    barrier := collector.heap.barrier
    threshold := collector.heap.threshold
    cycles := collector.hearer.reports }

def runWith [RandomSource Random] (settings : Settings) (workload : Workload)
    (policy : Policy) (random : Random) : Simulated Report := do
  let simulation ← start settings workload policy random
  let simulation ← steps workload workload.allocations.toNat simulation
  let simulation ← simulation.finish
  return simulation.report settings workload

end Simulation

/-- Runs a workload on a fresh collector, with the choices of a source. -/
def Workload.runFrom {Random : Type} [RandomSource Random] (workload : Workload)
    (settings : Settings) (random : Random) : Simulated Report := do
  Simulated.of workload.validate
  if workload.adaptive then
    Simulation.runWith settings workload ({} : AdaptivePromotion) random
  else Simulation.runWith settings workload ({} : FixedPromotion) random

/-- Runs a workload on a fresh collector, with the choices that follow from its seed. -/
def Workload.run (workload : Workload) (settings : Settings) : Simulated Report :=
  workload.runFrom settings (SeededRandom.ofSeed workload.seed)

end Tenure
