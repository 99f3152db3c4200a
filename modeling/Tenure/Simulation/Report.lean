import Tenure.Cards.Barrier
import Tenure.Heap.Basic
import Tenure.Settings.Document
import Tenure.Simulation.Workload
import Tenure.Telemetry.Totals

/-!
# Reports of simulations

A report tells what was run and what came of it, as lines for readers or as a
document.
-/

set_option autoImplicit false

namespace Tenure

/-- The forms of a report. -/
inductive ReportFormat where
  | text
  | json
deriving DecidableEq, Repr

structure Report where
  settings : Settings
  workload : Workload
  policy : String
  totals : Totals
  usage : Usage
  barrier : BarrierCounts
  threshold : Nat
  cycles : List CycleReport

def Workload.toJson (workload : Workload) : Json :=
  .ofFields [
    ("allocations", .ofNat workload.allocations.toNat),
    ("object_size", .ofNat workload.objectSize.toNat),
    ("fields", .ofNat workload.fields.toNat),
    ("survival", .ofFloat workload.survival),
    ("max_roots", .ofNat workload.maxRoots.toNat),
    ("link_probability", .ofFloat workload.linkProbability),
    ("adaptive", .bool workload.adaptive),
    ("seed", .ofNat workload.seed.toNat)]

def Usage.toJson (usage : Usage) : Json :=
  .ofFields [
    ("eden_used", .ofNat usage.edenUsed),
    ("eden_capacity", .ofNat usage.edenCapacity),
    ("survivor_used", .ofNat usage.survivorUsed),
    ("survivor_capacity", .ofNat usage.survivorCapacity),
    ("old_used", .ofNat usage.oldUsed),
    ("old_capacity", .ofNat usage.oldCapacity),
    ("live_objects", .ofNat usage.liveObjects)]

def BarrierCounts.toJson (counts : BarrierCounts) : Json :=
  .ofFields [
    ("invocations", .ofNat counts.invocations.toNat),
    ("cards_dirtied", .ofNat counts.cardsDirtied.toNat)]

def CycleReport.toJson (report : CycleReport) : Json :=
  .ofFields [
    ("kind", .ofText report.kind.name),
    ("cycle", .ofNat report.number),
    ("pause", Duration.toJson report.pause),
    ("bytes_reclaimed", .ofNat report.bytesReclaimed),
    ("objects_reclaimed", .ofNat report.objectsReclaimed),
    ("survival_rate", .ofFloat report.survivalRate),
    ("promoted", .ofNat report.promoted),
    ("trace_steps", .ofNat report.traceSteps)]

namespace Report

def withPauses (report : Report) (total longest : Nat) : Report :=
  { report with totals := { report.totals with totalPause := total, maxPause := longest } }

def toJson (report : Report) : Json :=
  .ofFields [
    ("config", report.settings.toJson),
    ("workload", report.workload.toJson),
    ("policy", .ofText report.policy),
    ("stats", report.totals.toJson),
    ("heap", report.usage.toJson),
    ("barrier", report.barrier.toJson),
    ("promotion_threshold", .ofNat report.threshold),
    ("cycles", .array (report.cycles.map CycleReport.toJson))]

def filling (used capacity : Nat) : String := s!"{used} / {capacity} bytes"

/-- The lines of the report: what each of them is about, and what it says. -/
def lines (report : Report) : List (String × String) :=
  let totals := report.totals
  let usage := report.usage
  [("allocations:", toString report.workload.allocations.toNat),
    ("policy:", s!"{report.policy} (final threshold {report.threshold})"),
    ("minor cycles:", toString totals.minorCycles),
    ("major cycles:", toString totals.majorCycles),
    ("total pause:", Duration.write totals.totalPause),
    ("max pause:", Duration.write totals.maxPause),
    ("reclaimed:", s!"{totals.objectsReclaimed} objects, {totals.bytesReclaimed} bytes"),
    ("promoted:", toString totals.objectsPromoted),
    ("promotion failures:", toString totals.promotionFailures),
    ("last survival rate:", Decimal.writeFixed 3 totals.lastSurvivalRate),
    ("barrier:", s!"{report.barrier.invocations.toNat} stores, " ++
      s!"{report.barrier.cardsDirtied.toNat} cards dirtied"),
    ("live objects:", toString usage.liveObjects),
    ("eden:", filling usage.edenUsed usage.edenCapacity),
    ("survivor:", filling usage.survivorUsed usage.survivorCapacity),
    ("old:", filling usage.oldUsed usage.oldCapacity)]

def column : Nat := 20

/-- The report for readers; the last line is not ended. -/
def text (report : Report) : String :=
  "\n".intercalate <| report.lines.map fun (label, content) =>
    label.pushn ' ' (column - label.length) ++ content

def render (report : Report) : ReportFormat → String
  | .text => report.text
  | .json => report.toJson.pretty

end Report

end Tenure
