import Tenure.Collector.Requests
import Tenure.Heap.Access
import Tenure.Heap.MajorCycle
import Tenure.Promotion
import Tenure.Roots
import Tenure.Telemetry.Totals

/-!
# The collector

The collector owns a heap and decides when its cycles run. It is idle, or in one
minor or major cycle; what is requested meanwhile waits. Listeners hear of every
cycle, a policy tunes the promotion threshold between minor cycles.
-/

set_option autoImplicit false

namespace Tenure

/-- A heap with everything that drives its cycles. -/
structure Collector (Source Policy Hearer : Type) where
  heap : Heap Source
  marker : Marker
  policy : Policy
  hearer : Hearer
  phase : Phase
  requests : Requests
  minorsSinceMajor : Nat
  cycle : Nat
  totals : Totals
  poison : Option Failure

namespace Collector

variable {Source Policy Hearer : Type}

def ofHeap (heap : Heap Source) (policy : Policy) (hearer : Hearer) :
    Collector Source Policy Hearer :=
  { heap
    marker := .fresh
    policy
    hearer
    phase := .idle
    requests := .none
    minorsSinceMajor := 0
    cycle := 0
    totals := {}
    poison := none }

/-- What the collector did so far, with the dropped requests up to now. -/
def currentTotals (collector : Collector Source Policy Hearer) : Totals :=
  { collector.totals with coalescedRequests := collector.requests.dropped }

def checkPoison (collector : Collector Source Policy Hearer) : Answer Unit :=
  match collector.poison with
  | some failure => .error failure
  | none => .ok ()

def request (collector : Collector Source Policy Hearer) (kind : CycleKind) :
    Checked (Bool × Collector Source Policy Hearer) := do
  let (queued, requests) ← collector.requests.push kind
  return (queued, { collector with requests })

def store (collector : Collector Source Policy Hearer) (holder : Handle) (index : Nat)
    (value : Option Handle) : Checked (Answer Unit × Collector Source Policy Hearer) := do
  let (answer, heap) ← collector.heap.store holder index value
  return (answer, { collector with heap })

def load (collector : Collector Source Policy Hearer) (holder : Handle) (index : Nat) :
    Answer (Option Handle) := collector.heap.load holder index

end Collector

end Tenure
