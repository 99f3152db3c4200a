import Tenure.Decimal.Layout
import Tenure.Simulation.Failure

/-!
# Workloads

A workload describes a program that does nothing but allocate: how many objects of
which shape, how many of them are kept, and how many are referenced by others.
-/

set_option autoImplicit false

namespace Tenure

structure Workload where
  /-- Objects to allocate. -/
  allocations : UInt64 := 10000
  /-- Bytes of each object. -/
  objectSize : UInt64 := 64
  /-- Reference fields of each object. -/
  fields : UInt64 := 2
  /-- The probability that a new object is kept as a root. -/
  survival : Float := 0.1
  /-- The most roots that are kept at once. -/
  maxRoots : UInt64 := 256
  /-- The probability that a new object is stored into a field of a root. -/
  linkProbability : Float := 0.3
  /-- Whether the promotion threshold follows the survival rate. -/
  adaptive : Bool := false
  seed : UInt64 := 42

/-- Causes for which a workload is refused. -/
inductive WorkloadFault where
  | survival (probability : Float)
  | linkProbability (probability : Float)
  | emptyObjects

def probabilityMessage (name : String) (value : Float) : String :=
  s!"{name} must be within [0, 1], got {Decimal.plainFormat.write value}"

def WorkloadFault.message : WorkloadFault → String
  | .survival probability => probabilityMessage "survival" probability
  | .linkProbability probability => probabilityMessage "link_probability" probability
  | .emptyObjects => "object_size must be non-zero"

def WorkloadFault.failure (fault : WorkloadFault) : SimulationFailure := .workload fault.message

def isProbability (value : Float) : Bool := 0.0 ≤ value && value ≤ 1.0

namespace Workload

def fault? (workload : Workload) : Option WorkloadFault :=
  if !isProbability workload.survival then some (.survival workload.survival)
  else if !isProbability workload.linkProbability then
    some (.linkProbability workload.linkProbability)
  else if workload.objectSize = 0 then some .emptyObjects
  else none

def validate (workload : Workload) : Except SimulationFailure Unit :=
  match workload.fault? with
  | some fault => .error fault.failure
  | none => .ok ()

end Workload

end Tenure
