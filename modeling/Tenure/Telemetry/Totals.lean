import Tenure.Telemetry.Duration
import Tenure.Telemetry.Event

/-!
# Totals over all cycles
-/

set_option autoImplicit false

namespace Tenure

structure Totals where
  minorCycles : Nat := 0
  majorCycles : Nat := 0
  totalPause : Nat := 0
  maxPause : Nat := 0
  bytesReclaimed : Nat := 0
  objectsReclaimed : Nat := 0
  objectsPromoted : Nat := 0
  promotionFailures : Nat := 0
  allocationFailures : Nat := 0
  coalescedRequests : Nat := 0
  thresholdChanges : Nat := 0
  lastSurvivalRate : Float := 0.0

namespace Totals

/-- Counts a cycle by its kind; minor cycles also leave their survival rate. -/
def countCycle (totals : Totals) (report : CycleReport) : Checked Totals :=
  match report.kind with
  | .minor => do
    let minorCycles ← Word.add totals.minorCycles 1
    return { totals with minorCycles, lastSurvivalRate := report.survivalRate }
  | .major => do
    let majorCycles ← Word.add totals.majorCycles 1
    return { totals with majorCycles }

def record (totals : Totals) (report : CycleReport) : Checked Totals := do
  let totals ← totals.countCycle report
  let bytesReclaimed ← Word.add totals.bytesReclaimed report.bytesReclaimed
  let objectsReclaimed ← Word.add totals.objectsReclaimed report.objectsReclaimed
  let objectsPromoted ← Word.add totals.objectsPromoted report.promoted
  return {
    totals with
    totalPause := totals.totalPause + report.pause
    maxPause := max totals.maxPause report.pause
    bytesReclaimed
    objectsReclaimed
    objectsPromoted }

def cycles (totals : Totals) : Checked Nat := Word.add totals.minorCycles totals.majorCycles

def toJson (totals : Totals) : Json :=
  .ofFields [
    ("minor_cycles", .ofNat totals.minorCycles),
    ("major_cycles", .ofNat totals.majorCycles),
    ("total_pause", Duration.toJson totals.totalPause),
    ("max_pause", Duration.toJson totals.maxPause),
    ("bytes_reclaimed", .ofNat totals.bytesReclaimed),
    ("objects_reclaimed", .ofNat totals.objectsReclaimed),
    ("objects_promoted", .ofNat totals.objectsPromoted),
    ("promotion_failures", .ofNat totals.promotionFailures),
    ("allocation_failures", .ofNat totals.allocationFailures),
    ("coalesced_requests", .ofNat totals.coalescedRequests),
    ("threshold_changes", .ofNat totals.thresholdChanges),
    ("last_survival_rate", .ofFloat totals.lastSurvivalRate)]

def write (totals : Totals) : String := totals.toJson.pretty

end Totals

end Tenure
